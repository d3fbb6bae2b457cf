import AdnacomEe.Basic
import AdnacomEe.BusMap.Walk
import Mathlib.Data.List.FinRange

/-!
# The summary printed by `map_bridges`

After the walks, `map_bridges` prints one line per existing bus (how it was entered) and one
line per claim, with the tag the walk left in `bug`: ` <overlap bug>` for `1`,
` <crossing bug>` for `2`, nothing otherwise. The walk only ever writes `1` or `2`, in the two
branches that do not descend; a claim through which the walk entered its bus keeps the `bug`
byte `map_bridge` left uninitialised, so whether such a claim is printed clean depends on the
heap. `entered_claim_printed_as_overlap` exhibits a table where the heap held `1`.

The overlap tag also depends on the order of the walks: a claim whose downstream bus has a lower
number than its own bus finds that bus already walked from the first loop of `map_bridges`
(`lower_bus_walk_tags_overlap`).
-/

namespace AdnacomEe
namespace BusMap

/-- The `switch (b->bug)` of `map_bridges`. -/
def bugTag (bug : Fin 256) : String :=
  if bug = 1 then " <overlap bug>" else if bug = 2 then " <crossing bug>" else ""

/-- `printf("\t%02x.%d Bridge to %02x-%02x", ...)` followed by the tag. -/
def claimLine (b : BusBridge) : String :=
  "\t" ++ hexPad 2 b.dev ++ "." ++ toString b.func.val ++ " Bridge to " ++ hexPad 2 b.first ++
    "-" ++ hexPad 2 b.last ++ bugTag b.bug

/-- The line `map_bridges` prints for an existing bus `i`: the claim it was entered through, or
what a bus entered through no claim is taken to be. -/
def entryLine (s : MapState) (i : Fin 256) : String :=
  hexPad 2 i ++ ": " ++
    match (s.info i).via.bind s.claim? with
    | some b => "Entered via " ++ hexPad 2 b.this ++ ":" ++ hexPad 2 b.dev ++ "." ++
        toString b.func.val
    | none => if i = 0 then "Primary host bus" else "Secondary host bus (?)"

/-- The lines `map_bridges` prints for bus `i`. -/
def busLines (s : MapState) (i : Fin 256) : List String :=
  (if (s.info i).«exists» then [entryLine s i] else []) ++ (s.info i).bridges.map claimLine

/-- **The output of `map_bridges`**: its heading, then the lines of every bus in order. -/
def summary (s : MapState) : List String :=
  ["", "Summary of buses:", ""] ++ (List.finRange 256).flatMap (busLines s)

/-! ### A claim that entered its bus, printed as an overlap -/

/-- Starting walks from buses that do not exist or are already visited changes nothing. -/
theorem startWalks_of_skip (fuel : Nat) : ∀ (is : List (Fin 256)) (s : MapState),
    (∀ i ∈ is, (s.info i).«exists» = false ∨ (s.info i).guestbook = true) →
      startWalks fuel is s = some s
  | [], _, _ => rfl
  | i :: is, s, h => by
    have hi : ¬((s.info i).«exists» = true ∧ (s.info i).guestbook = false) := by
      rcases h i (List.mem_cons_self _ _) with h' | h' <;> simp [h']
    simp only [startWalks, hi, if_false, Option.some_bind]
    exact startWalks_of_skip fuel is s fun j hj => h j (List.mem_cons_of_mem _ hj)

/-- A table whose bus `0` holds one bridge, slot `01.0`, claiming bus `1` alone, while the heap
under its fresh `bug` byte held `1`; a device was also found on bus `1`. -/
def junkBugTable : Fin 256 → BusInfo := fun i =>
  if i = 0 then ⟨true, false, [⟨0, 1, 0, 1, 1, 1⟩], none⟩
  else if i = 1 then ⟨true, false, [], none⟩
  else ⟨false, false, [], none⟩

/-- On `junkBugTable`, `map_bridges` enters bus `1` through the claim of bridge `01.0` and yet
prints that claim with ` <overlap bug>`. -/
theorem entered_claim_printed_as_overlap :
    ∃ s, mapBridges 256 ⟨junkBugTable, []⟩ = some s ∧ (s.info 1).via = some ⟨0, 0⟩ ∧
      "01: Entered via 00:01.0" ∈ summary s ∧
      "\t01.0 Bridge to 01-01 <overlap bug>" ∈ summary s := by
  let s₁ := ((MapState.enter ⟨junkBugTable, []⟩ 0).setVia 1 ⟨0, 0⟩).enter 1
  have hwalk : doMapBridges 256 ⟨junkBugTable, []⟩ 0 0 255 = some s₁ := by
    simp [doMapBridges, visitClaims, examine, junkBugTable, s₁]
  have hrest : startWalks 256 ((List.finRange 255).map Fin.succ) s₁ = some s₁ :=
    startWalks_of_skip 256 _ _ fun i hi => by
      obtain ⟨j, -, rfl⟩ := List.mem_map.mp hi
      by_cases hj : j = 0
      · subst hj; right; simp [s₁]
      · have h1 : j.succ ≠ 1 := fun h => hj (Fin.ext (by simpa [Fin.ext_iff] using h))
        left
        simp [s₁, junkBugTable, h1, Fin.succ_ne_zero]
  refine ⟨s₁, ?_, by simp [s₁], ?_, ?_⟩
  · show startWalks 256 (List.finRange (255 + 1)) _ = _
    rw [List.finRange_succ, startWalks, if_pos (by decide), hwalk, Option.some_bind, hrest]
  · exact List.mem_append_right _ (List.mem_flatMap.mpr ⟨1, List.mem_finRange _, by decide⟩)
  · exact List.mem_append_right _ (List.mem_flatMap.mpr ⟨0, List.mem_finRange _, by decide⟩)

/-! ### A claim tagged by the order of the walks -/

/-- A table where bus `2` holds one bridge, slot `00.0`, claiming bus `1`, numbered below its own
bus; bus `1` exists and holds no claim, and no other bus exists. -/
def lowDownstreamTable : Fin 256 → BusInfo := fun i =>
  if i = 1 then ⟨true, false, [], none⟩
  else if i = 2 then ⟨true, false, [⟨2, 0, 0, 1, 1, 0⟩], none⟩
  else ⟨false, false, [], none⟩

/-- On `lowDownstreamTable`, the first loop of `map_bridges` starts a walk at bus `1`, the lower
number, before the walk from bus `2` reaches the claim: the claim finds bus `1` in the guestbook and
is printed with ` <overlap bug>`, though no other claim names bus `1` and bus `1` claims nothing. -/
theorem lower_bus_walk_tags_overlap :
    ∃ s, mapBridges 256 ⟨lowDownstreamTable, []⟩ = some s ∧ (s.info 1).via = none ∧
      "\t00.0 Bridge to 01-01 <overlap bug>" ∈ summary s := by
  let s₁ := MapState.enter ⟨lowDownstreamTable, []⟩ 1
  let s₂ := (s₁.enter 2).setBug ⟨2, 0⟩ 1
  have hwalk₁ : doMapBridges 256 ⟨lowDownstreamTable, []⟩ (Fin.succ 0) 0 255 = some s₁ := by
    simp [doMapBridges, visitClaims, lowDownstreamTable, s₁]
  have hwalk₂ : doMapBridges 256 s₁ (Fin.succ (Fin.succ 0)) 0 255 = some s₂ := by
    simp [doMapBridges, visitClaims, examine, lowDownstreamTable, s₁, s₂]
  have hrest : startWalks 256 ((((List.finRange 253).map Fin.succ).map Fin.succ).map Fin.succ) s₂ =
      some s₂ := startWalks_of_skip 256 _ _ fun i hi => by
    simp only [List.map_map, List.mem_map, Function.comp_apply] at hi
    obtain ⟨j, -, rfl⟩ := hi
    have h1 : j.succ.succ.succ ≠ 1 := fun h => by simp [Fin.ext_iff] at h
    have h2 : j.succ.succ.succ ≠ 2 := fun h => by simp [Fin.ext_iff] at h
    left
    simp [s₂, s₁, MapState.setBug, MapState.enter, Function.update_apply, lowDownstreamTable, h1, h2]
  refine ⟨s₂, ?_, by simp [s₂, s₁, MapState.setBug, MapState.enter, lowDownstreamTable], ?_⟩
  · rw [mapBridges, List.finRange_succ, List.finRange_succ, List.finRange_succ, List.map_cons,
      List.map_cons, List.map_cons, startWalks, if_neg (by decide), Option.some_bind, startWalks,
      if_pos (by decide), hwalk₁, Option.some_bind, startWalks, if_pos (by decide), hwalk₂,
      Option.some_bind, hrest]
  · exact List.mem_append_right _ (List.mem_flatMap.mpr ⟨2, List.mem_finRange _, by decide⟩)

end BusMap
end AdnacomEe
