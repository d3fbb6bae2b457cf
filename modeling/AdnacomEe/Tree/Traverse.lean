import AdnacomEe.Tree.Grow
import Mathlib.Logic.Relation
import Mathlib.Data.List.Perm.Subperm

/-!
# The forest `lspci -t` draws, as a traversal

`show_forest` draws the host bridge; drawing a bridge draws its buses, drawing a bus draws its
devices, and drawing a device that backs a bridge draws that bridge. What it meets, in order, is
`treeTrace`: a bridge, then for each device of its buses the device and, if it backs a bridge, that
bridge's trace. Here the buses are abstract: `items b` are the devices on the buses of bridge `b`,
`bridgeFor x` is the bridge device `x` backs.

The tree `grow_tree` builds puts devices under bridges by bus number, not by where the bridges sit,
so the relation "`c` is drawn under `b`" (`IsParent`) can have cycles: a bridge whose range holds
the bus it sits on is drawn under itself. `TreeShape` is what `grow_tree` guarantees: each device
is under at most one bridge, each bridge is backed by at most one device, and no device backs the
host. Then every bridge has at most one parent and the host none, so no cycle is reachable from
the host (`TreeShape.acyclic`), and the traversal from the host ends within `N` nested bridges and
meets each bridge and each device at most once (`treeTrace_host`).
-/

namespace AdnacomEe
namespace Tree

open Relation

/-- What the drawing meets: a bridge, or a device. -/
inductive Shown
  | bridge (b : Nat)
  | dev (d : Nat)
deriving DecidableEq, Repr

section Traversal

variable (items : Nat → List Nat) (bridgeFor : Nat → Option Nat) (N : Nat)

/-- The device `x`, followed, if it backs a bridge `c`, by `rec c`. -/
def devTrace (rec : Nat → Option (List Shown)) (x : Nat) : Option (List Shown) :=
  match bridgeFor x with
  | some c => (rec c).map (Shown.dev x :: ·)
  | none => some [Shown.dev x]

/-- The devices `xs` in order, each with what it leads to. -/
def itemsTrace (rec : Nat → Option (List Shown)) : List Nat → Option (List Shown)
  | [] => some []
  | x :: xs => (devTrace bridgeFor rec x).bind fun tr => (itemsTrace rec xs).map (tr ++ ·)

/-- What drawing bridge `b` meets, with at most `fuel` nested bridges; `none` when they run out. -/
def treeTrace : Nat → Nat → Option (List Shown)
  | 0, _ => none
  | fuel + 1, b => (itemsTrace bridgeFor (treeTrace fuel) (items b)).map (Shown.bridge b :: ·)

/-- Bridge `c` is drawn under bridge `b`: a device under `b` backs `c`. -/
def IsParent (b c : Nat) : Prop := b < N ∧ ∃ x ∈ items b, bridgeFor x = some c

/-- **What `grow_tree` guarantees the drawing**, for the `N` bridges of the chain. -/
structure TreeShape : Prop where
  /-- Each device is under at most one bridge, once. -/
  items_nodup : ((List.range N).flatMap items).Nodup
  /-- Each bridge is backed by at most one device. -/
  bridgeFor_inj : ∀ x y c, bridgeFor x = some c → bridgeFor y = some c → x = y
  /-- Devices back bridges of the chain other than the host. -/
  bridgeFor_lt : ∀ x c, bridgeFor x = some c → 0 < c ∧ c < N

/-- `e` is met when drawing some bridge drawn, directly or not, under `b`. -/
def Below (b : Nat) : Shown → Prop
  | .bridge c => ReflTransGen (IsParent items bridgeFor N) b c
  | .dev x => ∃ c, ReflTransGen (IsParent items bridgeFor N) b c ∧ c < N ∧ x ∈ items c

/-- The bridges from the host down to `c`, `c`'s parent first. -/
inductive PathTo : List Nat → Nat → Prop
  | host : PathTo [] 0
  | child {S : List Nat} {b c : Nat} : PathTo S b → IsParent items bridgeFor N b c → PathTo (b :: S) c

variable {items bridgeFor N}

theorem Below.of_parent {b c : Nat} (h : IsParent items bridgeFor N b c) :
    ∀ {e : Shown}, Below items bridgeFor N c e → Below items bridgeFor N b e
  | .bridge _, he => he.head h
  | .dev _, ⟨c', hc', hlt, hx⟩ => ⟨c', hc'.head h, hlt, hx⟩

/-! ### The shape of the parent relation -/

namespace TreeShape

variable (hs : TreeShape items bridgeFor N)
include hs

theorem items_eq {b b' x : Nat} (hb : b < N) (hb' : b' < N) (hx : x ∈ items b)
    (hx' : x ∈ items b') : b = b' := by
  by_contra h
  exact disjoint_of_nodup_flatMap hs.items_nodup hb hb' h hx hx'

/-- **Parents are unique.** -/
theorem parent_unique {b b' c : Nat} (h : IsParent items bridgeFor N b c)
    (h' : IsParent items bridgeFor N b' c) : b = b' := by
  obtain ⟨hb, x, hx, hxc⟩ := h
  obtain ⟨hb', y, hy, hyc⟩ := h'
  obtain rfl := hs.bridgeFor_inj x y c hxc hyc
  exact hs.items_eq hb hb' hx hy

theorem not_parent_host {b : Nat} : ¬IsParent items bridgeFor N b 0 :=
  fun ⟨_, x, _, hx⟩ => Nat.lt_irrefl 0 (hs.bridgeFor_lt x 0 hx).1

/-- **No cycle is reachable from the host**: a bridge drawn from the host is not drawn under any
bridge drawn under it. -/
theorem acyclic {b : Nat} (h0 : ReflTransGen (IsParent items bridgeFor N) 0 b) :
    ∀ {z : Nat}, IsParent items bridgeFor N z b → ReflTransGen (IsParent items bridgeFor N) b z → False := by
  induction h0 with
  | refl => exact fun hz _ => hs.not_parent_host hz
  | @tail y b _ hyb ih =>
    intro z hz hbz
    obtain rfl := hs.parent_unique hz hyb
    rcases hbz.cases_tail with rfl | ⟨w, hbw, hwz⟩
    · exact ih hyb ReflTransGen.refl
    · exact ih hwz ((ReflTransGen.single hyb).trans hbw)

/-- Two bridges above one bridge are one above the other. -/
theorem ancestor_total {a a' z : Nat} (h : ReflTransGen (IsParent items bridgeFor N) a z)
    (h' : ReflTransGen (IsParent items bridgeFor N) a' z) :
    ReflTransGen (IsParent items bridgeFor N) a a' ∨ ReflTransGen (IsParent items bridgeFor N) a' a := by
  induction h with
  | refl => exact .inr h'
  | tail hay hyz ih =>
    rcases h'.cases_tail with rfl | ⟨w, ha'w, hwz⟩
    · exact .inl (hay.tail hyz)
    · obtain rfl := hs.parent_unique hwz hyz
      exact ih ha'w

/-- Two children of a bridge drawn from the host have nothing drawn under both. -/
theorem disjoint_children {b c c' z : Nat} (h0 : ReflTransGen (IsParent items bridgeFor N) 0 b)
    (hc : IsParent items bridgeFor N b c) (hc' : IsParent items bridgeFor N b c') (hne : c ≠ c')
    (hz : ReflTransGen (IsParent items bridgeFor N) c z)
    (hz' : ReflTransGen (IsParent items bridgeFor N) c' z) : False := by
  have key : ∀ {c c'}, IsParent items bridgeFor N b c → IsParent items bridgeFor N b c' → c ≠ c' →
      ReflTransGen (IsParent items bridgeFor N) c c' → False := fun hc hc' hne h => by
    rcases h.cases_tail with rfl | ⟨w, hcw, hwc'⟩
    · exact hne rfl
    · obtain rfl := hs.parent_unique hwc' hc'
      exact hs.acyclic (h0.tail hc) hc hcw
  rcases hs.ancestor_total hz hz' with h | h
  · exact key hc hc' hne h
  · exact key hc' hc (Ne.symm hne) h

/-- Anything met under two bridges is met under a bridge below both. -/
theorem below_common {c c' : Nat} {e : Shown} (h : Below items bridgeFor N c e)
    (h' : Below items bridgeFor N c' e) :
    ∃ z, ReflTransGen (IsParent items bridgeFor N) c z ∧ ReflTransGen (IsParent items bridgeFor N) c' z := by
  cases e with
  | bridge z => exact ⟨z, h, h'⟩
  | dev x =>
    obtain ⟨z, hz, hzl, hx⟩ := h
    obtain ⟨z', hz', hzl', hx'⟩ := h'
    obtain rfl := hs.items_eq hzl hzl' hx hx'
    exact ⟨z, hz, hz'⟩

end TreeShape

/-! ### What the traversal meets -/

/-- The devices of two lists lead to what each list leads to, one after the other. -/
theorem itemsTrace_append (rec : Nat → Option (List Shown)) (l₁ l₂ : List Nat) :
    itemsTrace bridgeFor rec (l₁ ++ l₂) =
      (itemsTrace bridgeFor rec l₁).bind fun a => (itemsTrace bridgeFor rec l₂).map (a ++ ·) := by
  induction l₁ with
  | nil => simp [itemsTrace]
  | cons x l ih =>
    rw [List.cons_append, itemsTrace, itemsTrace, ih]
    cases devTrace bridgeFor rec x <;> cases itemsTrace bridgeFor rec l <;>
      cases itemsTrace bridgeFor rec l₂ <;> simp

/-- What one device leads to: the device, or something met from the bridge it backs. -/
theorem mem_devTrace {rec : Nat → Option (List Shown)} {x : Nat} {s : List Shown}
    (h : devTrace bridgeFor rec x = some s) {e : Shown} (he : e ∈ s) :
    e = .dev x ∨ ∃ c trc, bridgeFor x = some c ∧ rec c = some trc ∧ e ∈ trc := by
  unfold devTrace at h
  split at h
  · obtain ⟨trc, hrc, rfl⟩ := Option.map_eq_some'.1 h
    rcases List.mem_cons.1 he with rfl | he
    · exact .inl rfl
    · exact .inr ⟨_, trc, ‹_›, hrc, he⟩
  · cases h
    exact .inl (List.mem_singleton.1 he)

/-- What `itemsTrace` meets comes from one of the devices. -/
theorem mem_itemsTrace {rec : Nat → Option (List Shown)} :
    ∀ {xs : List Nat} {tr : List Shown}, itemsTrace bridgeFor rec xs = some tr → ∀ e ∈ tr,
      ∃ x ∈ xs, e = .dev x ∨ ∃ c trc, bridgeFor x = some c ∧ rec c = some trc ∧ e ∈ trc
  | [], _, h, e, he => by cases h; cases he
  | x :: xs, tr, h, e, he => by
    obtain ⟨s, hs, h⟩ := Option.bind_eq_some.1 h
    obtain ⟨tr', htr', rfl⟩ := Option.map_eq_some'.1 h
    rcases List.mem_append.1 he with he | he
    · exact ⟨x, .head _, mem_devTrace hs he⟩
    · obtain ⟨y, hy, h⟩ := mem_itemsTrace htr' e he
      exact ⟨y, .tail _ hy, h⟩

/-- The devices lead somewhere when every bridge they back does. -/
theorem itemsTrace_isSome {rec : Nat → Option (List Shown)} :
    ∀ {xs : List Nat}, (∀ x ∈ xs, ∀ c, bridgeFor x = some c → ∃ trc, rec c = some trc) →
      ∃ tr, itemsTrace bridgeFor rec xs = some tr
  | [], _ => ⟨[], rfl⟩
  | x :: xs, h => by
    obtain ⟨tr', htr'⟩ := itemsTrace_isSome fun y hy => h y (.tail _ hy)
    obtain ⟨s, hs⟩ : ∃ s, devTrace bridgeFor rec x = some s := by
      unfold devTrace
      split
      · obtain ⟨trc, hrc⟩ := h x (.head _) _ ‹_›
        exact ⟨_, by rw [hrc]; rfl⟩
      · exact ⟨_, rfl⟩
    exact ⟨s ++ tr', by rw [itemsTrace, hs, Option.some_bind, htr']; rfl⟩

namespace TreeShape

variable (hs : TreeShape items bridgeFor N)
include hs

/-- Everything drawing bridge `b` meets is under `b`. -/
theorem below_of_mem_treeTrace : ∀ {fuel b : Nat} {tr : List Shown}, b < N →
    treeTrace items bridgeFor fuel b = some tr → ∀ e ∈ tr, Below items bridgeFor N b e
  | 0, _, _, _, h, _, _ => by cases h
  | fuel + 1, b, tr, hb, h, e, he => by
    obtain ⟨tr', htr', rfl⟩ := Option.map_eq_some'.1 h
    rcases List.mem_cons.1 he with rfl | he
    · exact ReflTransGen.refl
    · obtain ⟨x, hx, rfl | ⟨c, trc, hxc, hrc, he⟩⟩ := mem_itemsTrace htr' e he
      · exact ⟨b, ReflTransGen.refl, hb, hx⟩
      · exact Below.of_parent ⟨hb, x, hx, hxc⟩
          (below_of_mem_treeTrace (hs.bridgeFor_lt x c hxc).2 hrc e he)

/-- A device under a bridge `b` drawn from the host is not met again under a child of `b`. -/
theorem dev_not_below_child {b c x : Nat} (h0 : ReflTransGen (IsParent items bridgeFor N) 0 b)
    (hb : b < N) (hx : x ∈ items b) (hc : IsParent items bridgeFor N b c)
    (h : Below items bridgeFor N c (.dev x)) : False := by
  obtain ⟨z, hcz, hz, hxz⟩ := h
  obtain rfl := hs.items_eq hz hb hxz hx
  exact hs.acyclic (h0.tail hc) hc hcz

/-- Under a bridge drawn from the host, two devices lead to disjoint parts of the drawing. -/
theorem met_once {fuel b x y : Nat} {e : Shown} (h0 : ReflTransGen (IsParent items bridgeFor N) 0 b)
    (hb : b < N) (hx : x ∈ items b) (hy : y ∈ items b) (hxy : x ≠ y)
    (hex : e = .dev x ∨ ∃ c trc, bridgeFor x = some c ∧ treeTrace items bridgeFor fuel c = some trc ∧ e ∈ trc)
    (hey : e = .dev y ∨ ∃ c trc, bridgeFor y = some c ∧ treeTrace items bridgeFor fuel c = some trc ∧ e ∈ trc) :
    False := by
  have below : ∀ {x c trc}, bridgeFor x = some c → treeTrace items bridgeFor fuel c = some trc →
      e ∈ trc → Below items bridgeFor N c e := fun hxc hrc he =>
    hs.below_of_mem_treeTrace (hs.bridgeFor_lt _ _ hxc).2 hrc e he
  rcases hex with rfl | ⟨c, trc, hxc, hrc, he⟩ <;> rcases hey with h | ⟨c', trc', hyc, hrc', he'⟩
  · exact hxy (Shown.dev.inj h)
  · exact hs.dev_not_below_child h0 hb hx ⟨hb, y, hy, hyc⟩ (below hyc hrc' he')
  · subst h
    exact hs.dev_not_below_child h0 hb hy ⟨hb, x, hx, hxc⟩ (below hxc hrc he)
  · have hne : c ≠ c' := fun h => hxy (hs.bridgeFor_inj x y c hxc (h ▸ hyc))
    obtain ⟨z, hz, hz'⟩ := hs.below_common (below hxc hrc he) (below hyc hrc' he')
    exact hs.disjoint_children h0 ⟨hb, x, hx, hxc⟩ ⟨hb, y, hy, hyc⟩ hne hz hz'

/-- What the devices under a bridge drawn from the host lead to is met once, when what each
bridge under it leads to is. -/
theorem itemsTrace_nodup {fuel b : Nat} (h0 : ReflTransGen (IsParent items bridgeFor N) 0 b)
    (hb : b < N) (ih : ∀ {c trc}, IsParent items bridgeFor N b c →
      treeTrace items bridgeFor fuel c = some trc → trc.Nodup) :
    ∀ {xs : List Nat} {tr : List Shown}, xs.Nodup → xs ⊆ items b →
      itemsTrace bridgeFor (treeTrace items bridgeFor fuel) xs = some tr → tr.Nodup
  | [], _, _, _, h => by cases h; exact List.nodup_nil
  | x :: xs, tr, hnd, hsub, h => by
    obtain ⟨s, hseg, h⟩ := Option.bind_eq_some.1 h
    obtain ⟨tr', htr', rfl⟩ := Option.map_eq_some'.1 h
    have hx : x ∈ items b := hsub (.head _)
    have hxs := List.nodup_cons.1 hnd
    refine List.nodup_append.2 ⟨?seg, itemsTrace_nodup h0 hb ih hxs.2
      (fun y hy => hsub (.tail _ hy)) htr', ?disj⟩
    case seg =>
      unfold devTrace at hseg
      split at hseg
      · obtain ⟨trc, hrc, rfl⟩ := Option.map_eq_some'.1 hseg
        have hp : IsParent items bridgeFor N b _ := ⟨hb, x, hx, ‹_›⟩
        exact List.nodup_cons.2 ⟨fun hm => hs.dev_not_below_child h0 hb hx hp
          (hs.below_of_mem_treeTrace (hs.bridgeFor_lt x _ ‹_›).2 hrc _ hm), ih hp hrc⟩
      · cases hseg
        exact List.nodup_singleton _
    case disj =>
    intro e he he'
    obtain ⟨y, hy, hey⟩ := mem_itemsTrace htr' e he'
    exact hs.met_once h0 hb hx (hsub (.tail _ hy)) (fun h => hxs.1 (h ▸ hy)) (mem_devTrace hseg he) hey

/-- **Drawing a bridge drawn from the host meets each bridge and each device at most once.** -/
theorem treeTrace_nodup : ∀ {fuel b : Nat} {tr : List Shown},
    ReflTransGen (IsParent items bridgeFor N) 0 b → b < N →
      treeTrace items bridgeFor fuel b = some tr → tr.Nodup
  | 0, _, _, _, _, h => by cases h
  | fuel + 1, b, tr, h0, hb, h => by
    obtain ⟨tr', htr', rfl⟩ := Option.map_eq_some'.1 h
    have hitems : (items b).Nodup :=
      (List.nodup_flatMap.1 hs.items_nodup).1 b (List.mem_range.2 hb)
    refine List.nodup_cons.2 ⟨fun hm => ?_, hs.itemsTrace_nodup h0 hb
      (fun hc hrc => treeTrace_nodup (h0.tail hc) (hs.bridgeFor_lt _ _ hc.2.choose_spec.2).2 hrc)
      hitems (List.Subset.refl _) htr'⟩
    obtain ⟨x, hx, h | ⟨c, trc, hxc, hrc, he⟩⟩ := mem_itemsTrace htr' _ hm
    · cases h
    · have hp : IsParent items bridgeFor N b c := ⟨hb, x, hx, hxc⟩
      exact hs.acyclic (h0.tail hp) hp
        (hs.below_of_mem_treeTrace (hs.bridgeFor_lt x c hxc).2 hrc _ he)

/-! ### Termination -/

/-- Along a path from the host the bridges are distinct, and each is drawn from the host and
above the last. -/
theorem pathTo_nodup : ∀ {S : List Nat} {b : Nat}, PathTo items bridgeFor N S b →
    (b :: S).Nodup ∧ ReflTransGen (IsParent items bridgeFor N) 0 b ∧
      ∀ z ∈ S, ReflTransGen (IsParent items bridgeFor N) z b
  | _, _, .host => ⟨List.nodup_singleton 0, ReflTransGen.refl, fun _ h => absurd h (List.not_mem_nil _)⟩
  | _, c, @PathTo.child _ _ _ S b _ hp hbc => by
    obtain ⟨hnd, h0, hS⟩ := pathTo_nodup hp
    refine ⟨List.nodup_cons.2 ⟨fun hc => ?_, hnd⟩, h0.tail hbc, fun z hz => ?_⟩
    · rcases List.mem_cons.1 hc with rfl | hc
      · exact hs.acyclic h0 hbc ReflTransGen.refl
      · exact hs.acyclic (h0.tail hbc) hbc (hS c hc)
    · rcases List.mem_cons.1 hz with rfl | hz
      · exact ReflTransGen.single hbc
      · exact (hS z hz).tail hbc

/-- A path from the host has fewer than `N` bridges above its end. -/
theorem pathTo_end_lt (hN : 0 < N) : ∀ {S : List Nat} {b : Nat}, PathTo items bridgeFor N S b → b < N
  | _, _, .host => hN
  | _, _, .child _ ⟨_, x, _, hx⟩ => (hs.bridgeFor_lt x _ hx).2

theorem pathTo_length_lt (hN : 0 < N) {S : List Nat} {b : Nat} (hp : PathTo items bridgeFor N S b) :
    S.length < N := by
  have hb := hs.pathTo_end_lt hN hp
  have hlt : ∀ z ∈ b :: S, z < N := fun z hz => by
    rcases List.mem_cons.1 hz with rfl | hz
    · exact hb
    · rcases ((hs.pathTo_nodup hp).2.2 z hz).cases_head with rfl | ⟨w, ⟨hzN, -⟩, -⟩
      · exact hb
      · exact hzN
  calc S.length < (b :: S).length := Nat.lt_succ_self _
    _ ≤ (List.range N).length :=
      (List.subperm_of_subset (hs.pathTo_nodup hp).1 fun z hz => List.mem_range.2 (hlt z hz)).length_le
    _ = N := List.length_range N

/-- Drawing a bridge at the end of a path from the host ends when the fuel and the path together
reach `N`. -/
theorem treeTrace_isSome (hN : 0 < N) : ∀ {fuel : Nat} {S : List Nat} {b : Nat},
    PathTo items bridgeFor N S b → N ≤ fuel + S.length → ∃ tr, treeTrace items bridgeFor fuel b = some tr
  | 0, _, _, hp, hf => absurd (hs.pathTo_length_lt hN hp) (by omega)
  | fuel + 1, S, b, hp, hf => by
    have hb := hs.pathTo_end_lt hN hp
    obtain ⟨tr, h⟩ : ∃ tr, itemsTrace bridgeFor (treeTrace items bridgeFor fuel) (items b) = some tr :=
      itemsTrace_isSome fun x hx c hxc => treeTrace_isSome hN (hp.child ⟨hb, x, hx, hxc⟩) (by simp only [List.length_cons]; omega)
    exact ⟨_, by rw [treeTrace, h]; rfl⟩

/-- **Drawing from the host ends within `N` nested bridges, and meets each bridge and each device
at most once.** -/
theorem treeTrace_host (hN : 0 < N) : ∃ tr, treeTrace items bridgeFor N 0 = some tr ∧ tr.Nodup := by
  obtain ⟨tr, h⟩ : ∃ tr, treeTrace items bridgeFor N 0 = some tr :=
    hs.treeTrace_isSome hN PathTo.host (by simp)
  exact ⟨tr, h, hs.treeTrace_nodup ReflTransGen.refl hN h⟩

end TreeShape

end Traversal

end Tree
end AdnacomEe
