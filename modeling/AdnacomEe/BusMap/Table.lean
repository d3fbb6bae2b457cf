import Mathlib.Data.Fintype.Card
import Mathlib.Data.Fintype.Fin

/-!
# The bus map of `lspci -M`: the claims table and its writes

Bus-mapping mode (`map_the_bus` in `lspci.c`) probes every bus number directly and records,
on the bus where each bridge was found, the range of buses that bridge claims to forward
(`map_bridge`). The validator `do_map_bridges` then walks these claims depth-first from every
existing bus: it marks each bus it enters in the `guestbook`, tags a claim whose first bus was
already visited (`bug = 1`, an overlap) or whose range leaves the window of its own bus
(`bug = 2`, a crossing), and otherwise records the claim in `via` of the bus it enters.

This file holds the data and the three writes the validator performs:

* `BusBridge`, `BusInfo` — `struct bus_bridge` and `struct bus_info`; bus numbers and all
  claim fields are `byte`s, so `Fin 256`;
* `mapBridge` — `map_bridge`, with its clamp of an inverted range and the `bug` byte it never
  initialises;
* `MapState.enter`, `MapState.setBug`, `MapState.setVia` — the writes of `do_map_bridges`,
  each followed by the frame lemmas that say which fields it leaves alone.

`MapState` also carries the list of buses in the order `do_map_bridges` was entered on them.
It is ghost state: nothing in `lspci.c` reads it, and it is what lets the walk's theorems speak
of how often a bus is entered.
-/

namespace AdnacomEe
namespace BusMap

/-- `struct bus_bridge`: a bridge found on a bus, the bus it says it sits on (`this`), its slot,
and the range `[first, last]` of buses it claims. -/
structure BusBridge where
  this : Fin 256
  dev : Fin 256
  func : Fin 256
  first : Fin 256
  last : Fin 256
  bug : Fin 256
deriving DecidableEq, Repr

/-- A pointer to one `struct bus_bridge`: the bus whose `bridges` list holds it and its position
in that list. -/
structure ClaimRef where
  bus : Fin 256
  idx : Nat
deriving DecidableEq, Repr

/-- `struct bus_info`: one entry of the 256-entry `bus_info` array. -/
structure BusInfo where
  «exists» : Bool
  guestbook : Bool
  bridges : List BusBridge
  via : Option ClaimRef
deriving DecidableEq, Repr

/-- **`map_bridge`.** Prepend the claim of a bridge found on this bus. The header gives `this`,
`first` and `last`; an inverted range is clamped to the single bus `first`. `map_bridge` never
writes `bug`, which keeps whatever the freshly `xmalloc`ed record held: the argument `junk`. -/
def mapBridge (bi : BusInfo) (this dev func first last junk : Fin 256) : BusInfo :=
  { bi with bridges :=
      ⟨this, dev, func, first, if first > last then first else last, junk⟩ :: bi.bridges }

theorem mapBridge_first_le_last (bi : BusInfo) (this dev func first last junk : Fin 256) :
    ∀ b ∈ (mapBridge bi this dev func first last junk).bridges, b ∈ bi.bridges ∨
      b.first ≤ b.last := by
  intro b hb
  rcases List.mem_cons.mp hb with rfl | h
  · exact .inr (by dsimp only; split <;> omega)
  · exact .inl h

/-- The validator's state: the `bus_info` array, and (ghost) the buses in the order
`do_map_bridges` was entered on them. -/
structure MapState where
  info : Fin 256 → BusInfo
  entered : List (Fin 256)

namespace MapState

variable (s : MapState) {i : Fin 256}

/-- The claim a `ClaimRef` points at, if the list is long enough. -/
def claim? (r : ClaimRef) : Option BusBridge := (s.info r.bus).bridges[r.idx]?

/-- Entry of `do_map_bridges` on `bus`: `bi->guestbook = 1`. -/
def enter (bus : Fin 256) : MapState :=
  let bi := s.info bus
  { info := Function.update s.info bus { bi with guestbook := true },
    entered := s.entered ++ [bus] }

/-- `b->bug = v` for the claim `r`. -/
def setBug (r : ClaimRef) (v : Fin 256) : MapState :=
  let bi := s.info r.bus
  let bi' := { bi with bridges := bi.bridges.modify (fun b => { b with bug := v }) r.idx }
  { s with info := Function.update s.info r.bus bi' }

/-- `bus_info[f].via = r`. -/
def setVia (f : Fin 256) (r : ClaimRef) : MapState :=
  let bi := s.info f
  { s with info := Function.update s.info f { bi with via := some r } }

/-- Number of buses not yet in the guestbook: the measure that bounds the walk. -/
def unvisited : Nat := (Finset.univ.filter fun i => (s.info i).guestbook = false).card

@[simp] theorem enter_guestbook (bus : Fin 256) :
    ((s.enter bus).info i).guestbook = (i == bus || (s.info i).guestbook) := by
  by_cases h : i = bus <;> simp [enter, Function.update_apply, h]

@[simp] theorem enter_bridges (bus : Fin 256) :
    ((s.enter bus).info i).bridges = (s.info i).bridges := by
  by_cases h : i = bus <;> simp [enter, Function.update_apply, h]

@[simp] theorem enter_via (bus : Fin 256) : ((s.enter bus).info i).via = (s.info i).via := by
  by_cases h : i = bus <;> simp [enter, Function.update_apply, h]

@[simp] theorem enter_exists (bus : Fin 256) :
    ((s.enter bus).info i).«exists» = (s.info i).«exists» := by
  by_cases h : i = bus <;> simp [enter, Function.update_apply, h]

@[simp] theorem enter_entered (bus : Fin 256) : (s.enter bus).entered = s.entered ++ [bus] := rfl

@[simp] theorem setBug_guestbook (r : ClaimRef) (v : Fin 256) :
    ((s.setBug r v).info i).guestbook = (s.info i).guestbook := by
  by_cases h : i = r.bus <;> simp [setBug, Function.update_apply, h]

@[simp] theorem setBug_bridges (r : ClaimRef) (v : Fin 256) :
    ((s.setBug r v).info i).bridges = if i = r.bus then
      (s.info i).bridges.modify (fun b => { b with bug := v }) r.idx else (s.info i).bridges := by
  by_cases h : i = r.bus <;> simp [setBug, Function.update_apply, h]

@[simp] theorem setBug_via (r : ClaimRef) (v : Fin 256) :
    ((s.setBug r v).info i).via = (s.info i).via := by
  by_cases h : i = r.bus <;> simp [setBug, Function.update_apply, h]

@[simp] theorem setBug_exists (r : ClaimRef) (v : Fin 256) :
    ((s.setBug r v).info i).«exists» = (s.info i).«exists» := by
  by_cases h : i = r.bus <;> simp [setBug, Function.update_apply, h]

@[simp] theorem setBug_entered (r : ClaimRef) (v : Fin 256) :
    (s.setBug r v).entered = s.entered := rfl

@[simp] theorem setVia_guestbook (f : Fin 256) (r : ClaimRef) :
    ((s.setVia f r).info i).guestbook = (s.info i).guestbook := by
  by_cases h : i = f <;> simp [setVia, Function.update_apply, h]

@[simp] theorem setVia_bridges (f : Fin 256) (r : ClaimRef) :
    ((s.setVia f r).info i).bridges = (s.info i).bridges := by
  by_cases h : i = f <;> simp [setVia, Function.update_apply, h]

@[simp] theorem setVia_via (f : Fin 256) (r : ClaimRef) :
    ((s.setVia f r).info i).via = if i = f then some r else (s.info i).via := by
  by_cases h : i = f <;> simp [setVia, Function.update_apply, h]

@[simp] theorem setVia_exists (f : Fin 256) (r : ClaimRef) :
    ((s.setVia f r).info i).«exists» = (s.info i).«exists» := by
  by_cases h : i = f <;> simp [setVia, Function.update_apply, h]

@[simp] theorem setVia_entered (f : Fin 256) (r : ClaimRef) :
    (s.setVia f r).entered = s.entered := rfl

/-- Entering an unvisited bus takes exactly one bus off the unvisited count. -/
theorem unvisited_enter {bus : Fin 256} (h : (s.info bus).guestbook = false) :
    (s.enter bus).unvisited + 1 = s.unvisited := by
  have hset : (Finset.univ.filter fun i => ((s.enter bus).info i).guestbook = false) =
      (Finset.univ.filter fun i => (s.info i).guestbook = false).erase bus := by
    ext i
    by_cases hi : i = bus <;> simp [hi]
  rw [unvisited, unvisited, hset, Finset.card_erase_add_one (by simpa using h)]

/-- Fewer buses are unvisited once more are in the guestbook. -/
theorem unvisited_le {s s' : MapState}
    (h : ∀ i, (s.info i).guestbook = true → (s'.info i).guestbook = true) :
    s'.unvisited ≤ s.unvisited := by
  refine Finset.card_le_card fun i => ?_
  simp only [Finset.mem_filter, Finset.mem_univ, true_and]
  intro hi
  cases hs : (s.info i).guestbook
  · rfl
  · simp [h i hs] at hi

end MapState

end BusMap
end AdnacomEe
