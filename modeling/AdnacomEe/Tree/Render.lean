import AdnacomEe.Basic
import AdnacomEe.Tree.Traverse

/-!
# `show_forest`: drawing the tree `grow_tree` built

`show_tree_bridge`, `show_tree_bus` and `show_tree_dev` draw the tree by mutual recursion on one
line buffer: each level writes its text at the position it is given and passes the end on;
`print_it` prints the buffer up to the position and turns what it printed into the margin of the
next line. The recursion has no bound of its own: `show_tree_dev` descends into the bridge a device
backs, found by its `br_dev`, whatever the bridge's bus numbers, so a bridge whose range holds its
own bus is drawn under itself. Here each function takes fuel for that descent, and a ghost field of
the screen records what is drawn.

The drawing refines the traversal of `Tree.Traverse` (`showTreeBridge_draws`): where the traversal
ends, so does the drawing, and it draws the same bridges and devices in the same order. The heap
`grow_tree` leaves has the shape the traversal needs (`GrowInv.treeShape`), so:

* `showForest_draws_each_once`: for every registry, `show_forest` ends with as many levels of fuel
  as the chain has bridges, and draws each bridge and each device at most once.

`printIt_out` says what `print_it` prints: the text written below the position, and a newline.
Each level appends its text to the line (`PrintsLine`), and nothing bounds the sum by the 256 bytes
of `line` (`showForest_line_overflows`). A bridge whose range holds its own bus is drawn nowhere,
nor is what is behind it (`showForest_loses_self_claimed_bridge`).
-/

namespace AdnacomEe
namespace Tree

/-- What `show_forest` works on: the buffer `line`, the lines `fputs` printed, and, as a ghost,
the bridges and devices drawn so far. -/
structure Screen where
  line : Nat → Char
  out : List String
  shown : List Shown

/-! ### Writing to the line buffer -/

/-- The characters `cs` stored from position `p` on. -/
def writeChars : (Nat → Char) → Nat → List Char → Nat → Char
  | line, _, [] => line
  | line, p, c :: cs => writeChars (Function.update line p c) (p + 1) cs

/-- `p[0] = c0; p[1] = c1; ...`: characters stored without a terminator. -/
def putChars (sc : Screen) (p : Nat) (cs : List Char) : Screen :=
  { sc with line := writeChars sc.line p cs }

/-- `p += sprintf(p, ...)` with the formatted text `s`: the text and its terminating NUL are
stored, and the position moves to the NUL. -/
def sprintf (sc : Screen) (p : Nat) (s : String) : Screen × Nat :=
  (putChars sc p (s.toList ++ ['\x00']), p + s.length)

/-- The string `fputs` reads from position `i`: up to the first NUL, at most `n` characters. -/
def cString (line : Nat → Char) : Nat → Nat → List Char
  | 0, _ => []
  | n + 1, i => if line i = '\x00' then [] else line i :: cString line n (i + 1)

/-- **`print_it(line, p)`**: a newline and a NUL at `p`, `fputs(line)`, and then every character
printed becomes `|` if it was `+` or `|`, else a blank. -/
def printIt (sc : Screen) (p : Nat) : Screen :=
  let l := Function.update (Function.update sc.line p '\n') (p + 1) '\x00'
  let s := cString l (p + 2) 0
  { sc with
    out := sc.out ++ [String.mk s]
    line := fun i => if i < s.length then (if l i = '+' ∨ l i = '|' then '|' else ' ') else l i }

@[simp] theorem putChars_shown (sc : Screen) (p : Nat) (cs : List Char) :
    (putChars sc p cs).shown = sc.shown := rfl

@[simp] theorem sprintf_shown (sc : Screen) (p : Nat) (s : String) :
    (sprintf sc p s).1.shown = sc.shown := rfl

@[simp] theorem printIt_shown (sc : Screen) (p : Nat) : (printIt sc p).shown = sc.shown := by
  unfold printIt; rfl

/-! ### The texts -/

/-- `"%02x.%x"`: a device's slot and function. -/
def devText (q : Dev) : String := hexPad 2 q.dev ++ "." ++ hexPad 1 q.func

/-- The bus range of a bridge: `"-[%04x:%02x]-"` if it has one bus, else `"-[%04x:%02x-%02x]-"`. -/
def rangeText (b : BridgeInfo) : String :=
  if b.secondary = b.subordinate then "-[" ++ hexPad 4 b.domain ++ ":" ++ hexPad 2 b.secondary ++ "]-"
  else "-[" ++ hexPad 4 b.domain ++ ":" ++ hexPad 2 b.secondary ++ "-" ++ hexPad 2 b.subordinate ++ "]-"

/-- `"[%04x:%02x]-"`: a domain and a bus number. -/
def busText (domain number : Nat) : String := "[" ++ hexPad 4 domain ++ ":" ++ hexPad 2 number ++ "]-"

example : devText ⟨0, 0, 0x1c, 4, fun _ => 0⟩ = "1c.4" := by decide

/-! ### The drawing functions -/

section Draw

variable (chain : List BridgeInfo) (reg : List Dev) (name : Dev → Option String) (t : Heap)

/-- The bridge of the chain a device backs: the first whose `br_dev` is the device. -/
def backedBy (d : Nat) : Option Nat := chain.findIdx? fun b => b.brDev == some d

/-- **`show_tree_dev(d, line, p)`**, with `rec` for `show_tree_bridge`. The device's slot and
function, and then either the bus range of the bridge it backs and that bridge, or, under `-v`
(`name` gives `pci_lookup_name`'s text), its name, and the line is printed. -/
def showTreeDev (rec : Nat → Screen → Nat → Option Screen) (d : Nat) (sc : Screen) (p : Nat) :
    Option Screen :=
  match reg[d]? with
  | none => none
  | some q =>
    let r := sprintf { sc with shown := sc.shown ++ [.dev d] } p (devText q)
    match backedBy chain d with
    | some c =>
      let r' := sprintf r.1 r.2 (rangeText (chain.getD c hostBridge))
      rec c r'.1 r'.2
    | none =>
      let r' := match name q with
        | some s => sprintf r.1 r.2 ("  " ++ s)
        | none => r
      some (printIt r'.1 r'.2)

/-- The loop of `show_tree_bus` over a bus of several devices, from device `d`, with at most
`fuel` iterations: `"+-"` before each device that has a `next`, `"\-"` before the last. -/
def showBusDevs (rec : Nat → Screen → Nat → Option Screen) : Nat → Nat → Screen → Nat → Option Screen
  | 0, _, _, _ => none
  | fuel + 1, d, sc, p =>
    match t.next d with
    | some d' => (showTreeDev chain reg name rec d (putChars sc p ['+', '-']) (p + 2)).bind
        fun sc => showBusDevs rec fuel d' sc p
    | none => showTreeDev chain reg name rec d (putChars sc p ['\\', '-']) (p + 2)

/-- **`show_tree_bus(u, line, p)`**: an empty bus ends the line, a bus of one device draws it
after `"--"`, a longer bus runs the loop. -/
def showTreeBus (rec : Nat → Screen → Nat → Option Screen) (u : Nat) (sc : Screen) (p : Nat) :
    Option Screen :=
  match (t.bus u).firstDev with
  | none => some (printIt sc p)
  | some d =>
    match t.next d with
    | none => showTreeDev chain reg name rec d (putChars sc p ['-', '-']) (p + 2)
    | some _ => showBusDevs chain reg name t rec reg.length d sc p

/-- The loop of `show_tree_bridge` over a bridge of several buses: `"+-[dddd:bb]-"` before each
bus that has a `sibling`, `"\-[dddd:bb]-"` before the last. -/
def showBuses (rec : Nat → Screen → Nat → Option Screen) : List Nat → Screen → Nat → Option Screen
  | [], sc, _ => some sc
  | [u], sc, p =>
    let r := sprintf sc p ("\\-" ++ busText (t.bus u).domain (t.bus u).number)
    showTreeBus chain reg name t rec u r.1 r.2
  | u :: us, sc, p =>
    let r := sprintf sc p ("+-" ++ busText (t.bus u).domain (t.bus u).number)
    (showTreeBus chain reg name t rec u r.1 r.2).bind fun sc => showBuses rec us sc p

/-- **`show_tree_bridge(b, line, p)`**, with at most `fuel` nested bridges; `none` when they run
out, or when the bridge has no bus (`b->first_bus->sibling` reads through `NULL`). A bridge of one
bus draws it in place, after `"[dddd:bb]-"` for the host; a bridge of several runs the loop. -/
def showTreeBridge : Nat → Nat → Screen → Nat → Option Screen
  | 0, _, _, _ => none
  | fuel + 1, b, sc, p =>
    let sc := putChars { sc with shown := sc.shown ++ [.bridge b] } p ['-']
    match t.busesOf b with
    | [] => none
    | [u] =>
      let r := if b = 0 then sprintf sc (p + 1) (busText (chain.getD b hostBridge).domain (t.bus u).number)
        else (sc, p + 1)
      showTreeBus chain reg name t (showTreeBridge fuel) u r.1 r.2
    | u :: v :: us => showBuses chain reg name t (showTreeBridge fuel) (u :: v :: us) sc (p + 1)

end Draw

/-- **`show_forest()`**: `grow_tree`, then `show_tree_bridge(&host_bridge, line, line)` on the
buffer `line` as the stack leaves it, with as many levels of fuel as the chain has bridges. -/
def showForest (H : PciH) (reg : List Dev) (name : Dev → Option String) (line : Nat → Char) :
    Option Screen :=
  (growTree H reg).bind fun r => showTreeBridge r.1 reg name r.2 r.1.length 0 ⟨line, [], []⟩ 0

/-! ### The drawing refines the traversal -/

/-- Drawing `x` returns, and draws `tr` after `before`. -/
def Draws (x : Option Screen) (before tr : List Shown) : Prop :=
  ∃ sc, x = some sc ∧ sc.shown = before ++ tr

theorem Draws.bind {x : Option Screen} {f : Screen → Option Screen} {before tr₁ tr₂ : List Shown}
    (hx : Draws x before tr₁) (hf : ∀ sc : Screen, Draws (f sc) sc.shown tr₂) :
    Draws (x.bind f) before (tr₁ ++ tr₂) := by
  obtain ⟨sc, rfl, hsc⟩ := hx
  obtain ⟨sc', h, hsc'⟩ := hf sc
  exact ⟨sc', h, by rw [hsc', hsc, List.append_assoc]⟩

/-- Text written to the screen does not change what was drawn. -/
theorem Draws.of_shown {x : Option Screen} {before before' tr : List Shown} (h : Draws x before tr)
    (hb : before = before') : Draws x before' tr := hb ▸ h

theorem Draws.cons {x : Option Screen} {before : List Shown} {e : Shown} {tr : List Shown}
    (h : Draws x (before ++ [e]) tr) : Draws x before (e :: tr) := by
  obtain ⟨sc, hx, hsc⟩ := h
  exact ⟨sc, hx, by rw [hsc, List.append_assoc, List.singleton_append]⟩

section Refine

variable {chain : List BridgeInfo} {reg : List Dev} {name : Dev → Option String} {t : Heap}

/-- The devices `show_tree_bridge` draws under bridge `b`: those of its buses, in order. -/
def drawnItems (t : Heap) (b : Nat) : List Nat := (t.busesOf b).flatMap t.devs

theorem backedBy_lt {d c : Nat} (h : backedBy chain d = some c) : c < chain.length :=
  (List.findIdx?_eq_some_iff_getElem.1 h).1

/-- What a bus must hold for `show_tree_bus` to draw it: its pointers hold its ghost list, of at
most as many devices as the registry has, all in the registry. -/
def DrawableBus (reg : List Dev) (t : Heap) (u : Nat) : Prop :=
  BusRep t u ∧ (t.devs u).length ≤ reg.length ∧ ∀ x ∈ t.devs u, x < reg.length

variable {rec : Nat → Screen → Nat → Option Screen} {rec' : Nat → Option (List Shown)}
  (hrec : ∀ c trc (sc : Screen) p, c < chain.length → rec' c = some trc → Draws (rec c sc p) sc.shown trc)
include hrec

theorem showTreeDev_draws {d : Nat} (hd : d < reg.length) {s : List Shown}
    (h : devTrace (backedBy chain) rec' d = some s) (sc : Screen) (p : Nat) :
    Draws (showTreeDev chain reg name rec d sc p) sc.shown s := by
  rw [showTreeDev, List.getElem?_eq_getElem hd]
  unfold devTrace at h
  split at h
  · obtain ⟨trc, hrc, rfl⟩ := Option.map_eq_some'.1 h
    simp only [‹backedBy chain d = _›]
    exact Draws.cons (hrec _ trc _ _ (backedBy_lt ‹_›) hrc)
  · cases h
    simp only [‹backedBy chain d = _›]
    exact ⟨_, rfl, by split <;> rfl⟩

theorem showBusDevs_draws : ∀ {l : List Nat} {d fuel : Nat} {tr : List Shown},
    Linked t.next (some d) l → l.length ≤ fuel → (∀ x ∈ l, x < reg.length) →
      itemsTrace (backedBy chain) rec' l = some tr → ∀ sc p,
        Draws (showBusDevs chain reg name t rec fuel d sc p) sc.shown tr
  | [], _, _, _, hl, _, _, _ => by cases hl
  | x :: l, d, fuel, tr, ⟨hdx, hl⟩, hlen, hreg, h => by
    cases hdx
    obtain ⟨fuel, rfl⟩ : ∃ f, fuel = f + 1 := ⟨fuel - 1, by simp at hlen; omega⟩
    obtain ⟨s, hs, h⟩ := Option.bind_eq_some.1 h
    obtain ⟨tr', htr', rfl⟩ := Option.map_eq_some'.1 h
    have hx : ∀ sc p, Draws (showTreeDev chain reg name rec x sc p) sc.shown s :=
      showTreeDev_draws hrec (hreg x (.head _)) hs
    intro sc p
    rw [showBusDevs]
    cases hn : t.next x with
    | none =>
      rw [hn] at hl
      obtain rfl : l = [] := List.head?_eq_none_iff.1 (linked_head hl).symm
      cases htr'
      simp only [List.append_nil]
      exact hx _ _
    | some d' =>
      rw [hn] at hl
      exact (hx _ _).bind fun sc => showBusDevs_draws hl (by simp at hlen; omega)
        (fun y hy => hreg y (.tail _ hy)) htr' sc p

theorem showTreeBus_draws {u : Nat} (hu : DrawableBus reg t u) {tr : List Shown}
    (h : itemsTrace (backedBy chain) rec' (t.devs u) = some tr) (sc : Screen) (p : Nat) :
    Draws (showTreeBus chain reg name t rec u sc p) sc.shown tr := by
  obtain ⟨⟨hl, -⟩, hlen, hreg⟩ := hu
  rw [showTreeBus]
  cases hdl : t.devs u with
  | nil =>
    rw [hdl] at hl h
    cases h
    rw [show (t.bus u).firstDev = none from hl]
    exact ⟨_, rfl, by rw [printIt_shown, List.append_nil]⟩
  | cons x l =>
    rw [hdl] at hl h hreg hlen
    obtain ⟨hfirst, hl⟩ := hl
    cases hn : t.next x with
    | none =>
      rw [hn] at hl
      obtain rfl : l = [] := List.head?_eq_none_iff.1 (linked_head hl).symm
      obtain ⟨s, hs, h⟩ := Option.bind_eq_some.1 h
      cases h
      simp only [hfirst, hn, List.append_nil]
      exact showTreeDev_draws hrec (hreg x (.head _)) hs _ _
    | some y =>
      simp only [hfirst, hn]
      exact showBusDevs_draws hrec (show Linked t.next (some x) (x :: l) from ⟨rfl, hl⟩) hlen hreg h sc p

theorem showBuses_draws : ∀ {us : List Nat} {tr : List Shown}, us ≠ [] →
    (∀ u ∈ us, DrawableBus reg t u) → itemsTrace (backedBy chain) rec' (us.flatMap t.devs) = some tr →
      ∀ sc p, Draws (showBuses chain reg name t rec us sc p) sc.shown tr
  | [], _, hne, _, _ => absurd rfl hne
  | [u], tr, _, hus, h => by
    intro sc p
    rw [List.flatMap_singleton] at h
    exact (showTreeBus_draws hrec (hus u (.head _)) h _ _).of_shown (sprintf_shown _ _ _)
  | u :: v :: us, tr, _, hus, h => by
    intro sc p
    rw [List.flatMap_cons, itemsTrace_append] at h
    obtain ⟨tr₁, h₁, h⟩ := Option.bind_eq_some.1 h
    obtain ⟨tr₂, h₂, rfl⟩ := Option.map_eq_some'.1 h
    exact ((showTreeBus_draws hrec (hus u (.head _)) h₁ _ _).of_shown (sprintf_shown _ _ _)).bind fun sc =>
      showBuses_draws (List.cons_ne_nil v us) (fun w hw => hus w (.tail _ hw)) h₂ sc p

end Refine

section Bridge

variable {chain : List BridgeInfo} {reg : List Dev} {name : Dev → Option String} {t : Heap}
  (hbuses : ∀ b < chain.length, t.busesOf b ≠ [])
  (hbus : ∀ b < chain.length, ∀ u ∈ t.busesOf b, DrawableBus reg t u)
include hbuses hbus

/-- **The drawing refines the traversal**: where the traversal of bridge `b` ends, drawing `b`
ends too, and draws what the traversal meets. -/
theorem showTreeBridge_draws : ∀ {fuel b : Nat} {tr : List Shown}, b < chain.length →
    treeTrace (drawnItems t) (backedBy chain) fuel b = some tr → ∀ sc p,
      Draws (showTreeBridge chain reg name t fuel b sc p) sc.shown tr
  | 0, _, _, _, h, _, _ => by cases h
  | fuel + 1, b, tr, hb, h, sc, p => by
    obtain ⟨tr', htr', rfl⟩ := Option.map_eq_some'.1 h
    have hrec : ∀ c trc (sc : Screen) p, c < chain.length →
        treeTrace (drawnItems t) (backedBy chain) fuel c = some trc →
          Draws (showTreeBridge chain reg name t fuel c sc p) sc.shown trc :=
      fun c trc sc p hc hrc => showTreeBridge_draws hc hrc sc p
    apply Draws.cons
    rw [showTreeBridge]
    have hus := hbus b hb
    unfold drawnItems at htr'
    split
    · exact absurd ‹_› (hbuses b hb)
    · rename_i u hu
      rw [hu, List.flatMap_singleton] at htr'
      have hd : ∀ sc p, Draws (showTreeBus chain reg name t (showTreeBridge chain reg name t fuel) u sc p)
          sc.shown tr' := showTreeBus_draws hrec (hus u (by rw [hu]; exact .head _)) htr'
      split <;> exact hd _ _
    · rename_i u v us hu
      rw [hu] at htr' hus
      exact showBuses_draws hrec (List.cons_ne_nil _ _) hus htr' _ _

end Bridge

/-! ### What `grow_tree` leaves for the drawing -/

/-- The third loop of `grow_tree` leaves a bus on every bridge it visits, and takes none away. -/
theorem addSecondaryBuses_busesOf : ∀ (l : List (Nat × BridgeInfo)) (t : Heap) (b : Nat),
    (t.busesOf b ≠ [] ∨ ∃ p ∈ l, p.1 = b) →
      (l.foldl (fun t p =>
        match findBus t p.1 p.2.domain p.2.secondary with
        | some _ => t
        | none => (newBus t p.1 p.2.domain p.2.secondary).1) t).busesOf b ≠ []
  | [], _, _, h => h.resolve_right fun ⟨_, hp, _⟩ => absurd hp (List.not_mem_nil _)
  | p :: l, t, b, h => by
    have step : t.busesOf b ≠ [] ∨ p.1 = b → (match findBus t p.1 p.2.domain p.2.secondary with
        | some _ => t
        | none => (newBus t p.1 p.2.domain p.2.secondary).1).busesOf b ≠ [] := fun h => by
      split
      · rcases h with h | rfl
        · exact h
        · exact List.ne_nil_of_mem (List.mem_of_find?_eq_some ‹findBus _ _ _ _ = _›)
      · rw [newBus_busesOf]
        split
        · exact List.cons_ne_nil _ _
        · exact h.resolve_right (Ne.symm ‹_›)
    rw [List.foldl_cons]
    refine addSecondaryBuses_busesOf l _ b ?_
    rcases h with h | ⟨q, hq, rfl⟩
    · exact .inl (step (.inl h))
    · rcases List.mem_cons.1 hq with rfl | hq
      · exact .inl (step (.inr rfl))
      · exact .inr ⟨q, hq, rfl⟩

/-- Placing a device takes no bus away from a bridge. -/
theorem placeDev_busesOf_ne_nil {t : Heap} {b c d : Nat} {dv : Dev} (h : t.busesOf c ≠ []) :
    (placeDev t b d dv).busesOf c ≠ [] := by
  unfold placeDev
  split
  · exact h
  · rw [appendDev_busesOf, newBus_busesOf]
    split
    · exact List.cons_ne_nil _ _
    · exact h

/-- **The tree `grow_tree` leaves has the shape the traversal needs**: its buses and devices are
each owned once, and the bridges devices back are bridges of the chain other than the host. -/
theorem GrowInv.treeShape {H : PciH} {reg : List Dev} {t : Heap}
    (h : GrowInv (bridgeChain H reg) reg reg.length t) :
    TreeShape (drawnItems t) (backedBy (bridgeChain H reg)) (bridgeChain H reg).length where
  items_nodup := by
    show ((List.range _).flatMap fun b => (t.busesOf b).flatMap t.devs).Nodup
    rw [← List.flatMap_assoc]
    exact (h.owned.flatMap_right t.devs).nodup_iff.2 h.nodup
  bridgeFor_inj x y c hx hy := by
    obtain ⟨_, hx, -⟩ := List.findIdx?_eq_some_iff_getElem.1 hx
    obtain ⟨_, hy, -⟩ := List.findIdx?_eq_some_iff_getElem.1 hy
    exact Option.some_inj.1 ((beq_iff_eq.1 hx).symm.trans (beq_iff_eq.1 hy))
  bridgeFor_lt x c hx := by
    obtain ⟨hc, hx, -⟩ := List.findIdx?_eq_some_iff_getElem.1 hx
    refine ⟨Nat.pos_of_ne_zero fun h0 => ?_, hc⟩
    subst h0
    simp [bridgeChain, hostBridge] at hx

/-- Every bus of a bridge of the chain can be drawn. -/
theorem GrowInv.drawableBus {chain : List BridgeInfo} {reg : List Dev} {t : Heap}
    (h : GrowInv chain reg reg.length t) {b u : Nat} (hb : b < chain.length) (hu : u ∈ t.busesOf b) :
    DrawableBus reg t u := by
  have hu' := h.lt_of_mem_busesOf hb hu
  refine ⟨h.rep u hu', ?_, fun x hx => h.mem_lt hu' hx⟩
  calc (t.devs u).length ≤ (List.range reg.length).length :=
        (List.subperm_of_subset (h.devs_nodup hu') fun x hx => List.mem_range.2 (h.mem_lt hu' hx)).length_le
    _ = reg.length := List.length_range _

/-- **`show_forest` ends, and draws each bridge and each device at most once**, for every
registry, whatever the bus numbers of its bridges, whatever `-v` adds and whatever the line buffer
holds when it starts. -/
theorem showForest_draws_each_once (H : PciH) (reg : List Dev) (name : Dev → Option String)
    (line : Nat → Char) : ∃ sc, showForest H reg name line = some sc ∧ sc.shown.Nodup := by
  set chain := bridgeChain H reg
  have hN : 0 < chain.length := Nat.succ_pos _
  obtain ⟨t, hg, hinv, hbuses⟩ := growTree_run H reg (fun _ t => ∀ b < chain.length, t.busesOf b ≠ [])
    (fun b hb => addSecondaryBuses_busesOf _ _ b
      (.inr ⟨(b, chain[b]), List.mem_enum_iff_getElem?.2 (List.getElem?_eq_getElem hb), rfl⟩))
    (fun _ _ _ _ _ _ h b hb => placeDev_busesOf_ne_nil (h b hb))
  obtain ⟨tr, htr, hnd⟩ := hinv.treeShape.treeTrace_host hN
  obtain ⟨sc, hsc, hshown⟩ := showTreeBridge_draws hbuses (fun b hb u hu => hinv.drawableBus hb hu)
    hN htr ⟨line, [], []⟩ 0
  refine ⟨sc, ?_, by rw [hshown]; exact hnd⟩
  simp only [showForest, hg, Option.some_bind]
  exact hsc

/-- A root port at `00:1c.0` over bus 1, with a device there, and a device at `00:1f.3`. -/
example : (showForest pciH [⟨0, 0, 0x1c, 0, fun i => if i = 0x0a then 0x04 else if i = 0x0b then 0x06
    else if i = 0x0e then 1 else if i = 0x19 ∨ i = 0x1a then 1 else 0⟩, ⟨0, 0, 0x1f, 3, fun _ => 0⟩,
    ⟨0, 1, 0, 0, fun _ => 0⟩] (fun _ => none) (fun _ => 'x')).map Screen.out =
      some ["-[0000:00]-+-1c.0-[0000:01]----00.0\n", "           \\-1f.3\n"] := by decide

/-! ### What a printed line holds -/

/-- The text written below position `p`. -/
def lineText (line : Nat → Char) (p : Nat) : List Char := (List.range p).map line

theorem lineText_congr {l l' : Nat → Char} {p : Nat} (h : ∀ i < p, l i = l' i) :
    lineText l p = lineText l' p :=
  List.map_congr_left fun i hi => h i (List.mem_range.1 hi)

theorem lineText_update (line : Nat → Char) (p : Nat) (c : Char) :
    lineText (Function.update line p c) (p + 1) = lineText line p ++ [c] := by
  rw [lineText, List.range_succ, List.map_append, List.map_singleton, Function.update_same]
  exact congrArg (· ++ [c]) (lineText_congr fun i hi => Function.update_noteq (by omega) _ _)

theorem writeChars_of_lt : ∀ (cs : List Char) (line : Nat → Char) {p i : Nat}, i < p →
    writeChars line p cs i = line i
  | [], _, _, _, _ => rfl
  | _ :: cs, _, _, _, h => by
    rw [writeChars, writeChars_of_lt cs _ (by omega), Function.update_noteq (by omega)]

/-- Writing `cs ++ ds` from `p` puts `cs` after the text below `p`. -/
theorem lineText_writeChars (ds : List Char) : ∀ (cs : List Char) (line : Nat → Char) (p : Nat),
    lineText (writeChars line p (cs ++ ds)) (p + cs.length) = lineText line p ++ cs
  | [], line, p => by
    rw [List.nil_append, List.length_nil, Nat.add_zero, List.append_nil]
    exact lineText_congr fun _ hi => writeChars_of_lt ds line hi
  | c :: cs, line, p => by
    rw [List.cons_append, writeChars, List.length_cons, ← Nat.add_assoc, Nat.add_right_comm,
      lineText_writeChars ds cs, lineText_update, List.append_assoc, List.singleton_append]

theorem lineText_putChars (sc : Screen) (p : Nat) (cs : List Char) :
    lineText (putChars sc p cs).line (p + cs.length) = lineText sc.line p ++ cs := by
  simpa using lineText_writeChars [] cs sc.line p

theorem lineText_sprintf (sc : Screen) (p : Nat) (s : String) :
    lineText (sprintf sc p s).1.line (sprintf sc p s).2 = lineText sc.line p ++ s.toList :=
  lineText_writeChars _ s.toList sc.line p

/-- `fputs` reads a NUL-free text up to the NUL that ends it. -/
theorem cString_range' {l : Nat → Char} : ∀ (m i : Nat), (∀ j, i ≤ j → j < i + m → l j ≠ '\x00') →
    l (i + m) = '\x00' → cString l (m + 1) i = (List.range' i m).map l
  | 0, i, _, hz => by rw [Nat.add_zero] at hz; simp [cString, hz]
  | m + 1, i, h, hz => by
    rw [cString, if_neg (h i le_rfl (by omega)), cString_range' m (i + 1)
      (fun j hj hj' => h j (by omega) (by omega)) (by rw [← hz]; congr 1; omega)]
    rfl

theorem cString_eq_lineText {l : Nat → Char} {n : Nat} (hn : '\x00' ∉ lineText l n)
    (hz : l n = '\x00') : cString l (n + 1) 0 = lineText l n := by
  rw [lineText, List.range_eq_range']
  refine cString_range' n 0 (fun j _ hj hj0 => hn ?_) (by rwa [Nat.zero_add])
  exact List.mem_map.2 ⟨j, List.mem_range.2 (by omega), hj0⟩

/-- **`print_it` prints the text written so far**, and a newline, when it holds no NUL. -/
theorem printIt_out (sc : Screen) (p : Nat) (h : '\x00' ∉ lineText sc.line p) :
    (printIt sc p).out = sc.out ++ [String.mk (lineText sc.line p ++ ['\n'])] := by
  have ht : lineText (Function.update (Function.update sc.line p '\n') (p + 1) '\x00') (p + 1) =
      lineText sc.line p ++ ['\n'] := by
    rw [← lineText_update]
    exact lineText_congr fun i hi => Function.update_noteq (by omega) _ _
  have hs := cString_eq_lineText (by rw [ht]; simpa using h) (Function.update_same _ _ _)
  simp only [printIt, hs, ht]

/-- Drawing `x`, from the screen `sc` at position `p`, ends by printing one line: the text below
the position it prints at is `txt` after the text below `p`, and nothing was printed before. -/
def PrintsLine (x : Option Screen) (sc : Screen) (p : Nat) (txt : List Char) : Prop :=
  ∃ sc' p', x = some (printIt sc' p') ∧ sc'.out = sc.out ∧ lineText sc'.line p' = lineText sc.line p ++ txt

section Leaf

variable {chain : List BridgeInfo} {reg : List Dev} {name : Dev → Option String} {t : Heap}

/-- A device that backs no bridge, shown under `-v` with the name `s`, prints its slot and its
name. -/
theorem showTreeDev_leaf {rec : Nat → Screen → Nat → Option Screen} {d : Nat} {q : Dev} {s : String}
    (hq : reg[d]? = some q) (hb : backedBy chain d = none) (hn : name q = some s) (sc : Screen)
    (p : Nat) : PrintsLine (showTreeDev chain reg name rec d sc p) sc p
      ((devText q).toList ++ ("  " ++ s).toList) := by
  simp only [showTreeDev, hq, hb, hn]
  exact ⟨_, _, rfl, rfl, by rw [lineText_sprintf, lineText_sprintf, List.append_assoc]⟩

/-- A bus of one device draws it after `"--"`. -/
theorem showTreeBus_single {rec : Nat → Screen → Nat → Option Screen} {u d : Nat} {txt : List Char}
    (hf : (t.bus u).firstDev = some d) (hn : t.next d = none)
    (h : ∀ sc p, PrintsLine (showTreeDev chain reg name rec d sc p) sc p txt) (sc : Screen) (p : Nat) :
    PrintsLine (showTreeBus chain reg name t rec u sc p) sc p (['-', '-'] ++ txt) := by
  simp only [showTreeBus, hf, hn]
  obtain ⟨sc', p', hx, ho, ht⟩ := h (putChars sc p ['-', '-']) (p + 2)
  exact ⟨sc', p', hx, ho, by rw [ht, ← List.append_assoc]; exact congrArg (· ++ txt) (lineText_putChars sc p _)⟩

/-- The host bridge with one bus draws `"-[dddd:bb]-"` and the bus. -/
theorem showTreeBridge_host_single (fuel : Nat) {u : Nat} {txt : List Char} (hu : t.busesOf 0 = [u])
    (h : ∀ sc p, PrintsLine (showTreeBus chain reg name t (showTreeBridge chain reg name t fuel) u sc p)
      sc p txt) (sc : Screen) (p : Nat) :
    PrintsLine (showTreeBridge chain reg name t (fuel + 1) 0 sc p) sc p
      ('-' :: (busText (chain.getD 0 hostBridge).domain (t.bus u).number).toList ++ txt) := by
  simp only [showTreeBridge, hu, if_true]
  obtain ⟨sc', p', hx, ho, ht⟩ := h _ _
  refine ⟨sc', p', hx, ho, ?_⟩
  have hput := lineText_putChars { sc with shown := sc.shown ++ [.bridge 0] } p ['-']
  rw [List.length_singleton] at hput
  rw [ht, lineText_sprintf, hput]
  simp

end Leaf

/-- One device, `00:00.0`, on the host's bus. -/
def leafRegistry : List Dev := [⟨0, 0, 0, 0, fun _ => 0⟩]

/-- A `-v` name of 255 characters, which fits `pci_lookup_name`'s 256-byte buffer. -/
def longName : Dev → Option String := fun _ => some (String.mk (List.replicate 255 'a'))

/-- The line of a device shown under `-v` with a name of 255 characters, which fits
`pci_lookup_name`'s buffer, is 275 characters long with its newline: `print_it` stores its newline
and NUL at 274 and 275, past the end of the 256-byte `line`. -/
theorem showForest_line_overflows :
    ∃ sc, showForest pciH leafRegistry longName (fun _ => 'x') = some sc ∧
      sc.out.map String.length = [275] := by
  obtain ⟨t, hg, hu, hnum, hf, hn⟩ : ∃ t, growTree pciH leafRegistry = some ([hostBridge], t) ∧
      t.busesOf 0 = [0] ∧ (t.bus 0).number = 0 ∧ (t.bus 0).firstDev = some 0 ∧ t.next 0 = none :=
    ⟨_, rfl, by decide, by decide, by decide, by decide⟩
  have hq : leafRegistry[0]? = some ⟨0, 0, 0, 0, fun _ => 0⟩ := rfl
  have hb : backedBy [hostBridge] 0 = none := rfl
  have hname : longName ⟨0, 0, 0, 0, fun _ => 0⟩ = some (String.mk (List.replicate 255 'a')) := rfl
  obtain ⟨sc', p', hx, ho, ht⟩ := showTreeBridge_host_single 0 hu
    (showTreeBus_single hf hn (showTreeDev_leaf hq hb hname)) ⟨fun _ => 'x', [], []⟩ 0
  rw [showForest, hg, Option.some_bind, List.length_singleton, hx]
  refine ⟨_, rfl, ?_⟩
  have htxt : lineText sc'.line p' = "-[0000:00]---00.0  ".toList ++ List.replicate 255 'a' := by
    rw [ht, hnum]; rfl
  have hnul : '\x00' ∉ lineText sc'.line p' := by
    rw [htxt, List.mem_append, not_or]
    exact ⟨by decide, by rw [List.mem_replicate]; decide⟩
  rw [printIt_out _ _ hnul, ho, htxt, List.nil_append, List.map_singleton, String.length_mk,
    List.length_append, List.length_append, List.length_replicate]
  rfl

/-! ### A bridge under itself -/

/-- One bridge, at `05:00.0`, whose range `5-5` holds its own bus `5`. -/
def selfBridgeRegistry : List Dev := [⟨0, 5, 0, 0, bridgeHeader 5 5 5⟩]

/-- `insert_dev` finds no bus `5` on the host and descends into the child that claims it, the
bridge itself, so the bridge lands on its own secondary bus. The host's bus `00` is empty and
printed alone; the bridge is behind itself and drawn nowhere. -/
theorem showForest_loses_self_claimed_bridge : Sorted selfBridgeRegistry ∧
    ∃ sc, showForest pciH selfBridgeRegistry (fun _ => none) (fun _ => 'x') = some sc ∧
      sc.out = ["-[0000:00]-\n"] ∧ sc.shown = [.bridge 0] := by
  refine ⟨by decide, _, rfl, ?_⟩
  decide

end Tree
end AdnacomEe
