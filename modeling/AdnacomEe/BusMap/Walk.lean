import AdnacomEe.BusMap.Table

/-!
# The guarded walk `do_map_bridges` and its termination

`do_map_bridges(bus, min, max)` marks `bus` in the guestbook and then examines the claims of
`bus` in list order. A claim whose first bus is already in the guestbook is tagged `1`; one
whose range `[first, last]` leaves the window `[min, max]` is tagged `2`; any other claim is
recorded as `via` of its first bus and the walk recurses there with window `[first, last]`.
`map_bridges` starts such a walk, with window `[0, 255]`, from every existing bus that no
earlier walk reached.

The recursion is written with `fuel`, one unit per level of nesting, and returns `none` only
when the fuel runs out; the loop over the claims is the structural recursion `visitClaims`.
The claims of a bus are read once, on entry: the walk writes only their `bug` bytes, never
`first`, `last` or the links of the list.

* `WalkInv.doMapBridges` — the one induction over the walk: an invariant that each of the
  three writes keeps (`enter` and `setVia` only under their guard, an unvisited bus) holds
  after every walk.
* `Reached` — the invariant behind termination: the guestbook only grows, and the buses the
  walk has entered are, without repetition, exactly those it added to the guestbook.
* `doMapBridges_isSome` — fuel at least the number of unvisited buses is always enough.
* `mapBridges_terminates` — `map_bridges` finishes with at most 256 nested calls, and enters
  each bus at most once.
-/

namespace AdnacomEe
namespace BusMap

/-- A recursive call of `do_map_bridges`: state, bus, window bounds. -/
abbrev Walker := MapState → Fin 256 → Fin 256 → Fin 256 → Option MapState

/-- The body of the loop in `do_map_bridges`, for the claim `b` at `r` on a bus walked with window
`[lo, hi]`; `rec` is the recursive call. -/
def examine (rec : Walker) (lo hi : Fin 256) (s : MapState) (r : ClaimRef) (b : BusBridge) :
    Option MapState :=
  if (s.info b.first).guestbook then some (s.setBug r 1)
  else if b.first < lo ∨ hi < b.last then some (s.setBug r 2)
  else rec (s.setVia b.first r) b.first b.first b.last

/-- The loop `for (b = bi->bridges; b; b = b->next)` of `do_map_bridges` over the claims of
`bus`, the first of them at position `k`. -/
def visitClaims (rec : Walker) (bus lo hi : Fin 256) :
    Nat → List BusBridge → MapState → Option MapState
  | _, [], s => some s
  | k, b :: bs, s => (examine rec lo hi s ⟨bus, k⟩ b).bind (visitClaims rec bus lo hi (k + 1) bs)

/-- **`do_map_bridges`**, with `fuel` levels of recursion left. -/
def doMapBridges : Nat → Walker
  | 0, _, _, _, _ => none
  | fuel + 1, s, bus, lo, hi =>
    visitClaims (doMapBridges fuel) bus lo hi 0 (s.info bus).bridges (s.enter bus)

/-- The first loop of `map_bridges` from the bus list `is` on: a walk with window `[0, 255]` from
every existing bus that is not yet in the guestbook. -/
def startWalks (fuel : Nat) : List (Fin 256) → MapState → Option MapState
  | [], s => some s
  | i :: is, s =>
    (if (s.info i).«exists» = true ∧ (s.info i).guestbook = false then
      doMapBridges fuel s i 0 255 else some s).bind (startWalks fuel is)

/-- **`map_bridges`**, the walk: buses `0` to `255` in order, each walk with `fuel` levels. -/
def mapBridges (fuel : Nat) (s : MapState) : Option MapState :=
  startWalks fuel (List.finRange 256) s

/-! ### One induction for every invariant of the walk -/

/-- An invariant of the walk: kept by each write `do_map_bridges` performs, where `enter` and
`setVia` are only ever applied to a bus that is not in the guestbook. -/
structure WalkInv (I : MapState → Prop) : Prop where
  enter : ∀ s bus, (s.info bus).guestbook = false → I s → I (s.enter bus)
  setBug : ∀ s r v, I s → I (s.setBug r v)
  setVia : ∀ s f r, (s.info f).guestbook = false → I s → I (s.setVia f r)

namespace WalkInv

variable {I : MapState → Prop}

theorem visitClaims (hI : WalkInv I) {rec : Walker}
    (hrec : ∀ s f lo hi s', (s.info f).guestbook = false → rec s f lo hi = some s' → I s → I s')
    (bus lo hi : Fin 256) :
    ∀ k bs s s', visitClaims rec bus lo hi k bs s = some s' → I s → I s'
  | _, [], s, s', h, hs => by cases h; exact hs
  | k, b :: bs, s, s', h, hs => by
    obtain ⟨s₁, h₁, h₂⟩ := Option.bind_eq_some.mp h
    refine visitClaims hI hrec bus lo hi (k + 1) bs s₁ s' h₂ ?_
    unfold examine at h₁
    split_ifs at h₁ with hv hw
    · cases h₁; exact hI.setBug _ _ _ hs
    · cases h₁; exact hI.setBug _ _ _ hs
    · exact hrec _ _ _ _ _ (by simpa using hv) h₁ (hI.setVia _ _ _ (by simpa using hv) hs)

/-- **The walk keeps every `WalkInv`.** -/
theorem doMapBridges (hI : WalkInv I) :
    ∀ fuel s bus lo hi s', (s.info bus).guestbook = false →
      BusMap.doMapBridges fuel s bus lo hi = some s' → I s → I s'
  | 0, _, _, _, _, _, _, h, _ => by cases h
  | fuel + 1, s, bus, lo, hi, s', hb, h, hs =>
    hI.visitClaims (doMapBridges hI fuel) bus lo hi 0 _ _ _ h (hI.enter _ _ hb hs)

theorem startWalks (hI : WalkInv I) (fuel : Nat) :
    ∀ is s s', BusMap.startWalks fuel is s = some s' → I s → I s'
  | [], s, s', h, hs => by cases h; exact hs
  | i :: is, s, s', h, hs => by
    obtain ⟨s₁, h₁, h₂⟩ := Option.bind_eq_some.mp h
    refine startWalks hI fuel is s₁ s' h₂ ?_
    split_ifs at h₁ with hg
    · exact hI.doMapBridges fuel s i 0 255 s₁ hg.2 h₁ hs
    · cases h₁; exact hs

end WalkInv

/-! ### The guestbook and the entered buses -/

/-- The guestbook of `s'` contains that of `s`. -/
def GuestbookLe (s s' : MapState) : Prop :=
  ∀ i, (s.info i).guestbook = true → (s'.info i).guestbook = true

theorem guestbookLe_walkInv (s₀ : MapState) : WalkInv (GuestbookLe s₀) where
  enter s bus _ hs i h := by simp [hs i h]
  setBug s r v hs := by simpa [GuestbookLe] using hs
  setVia s f r _ hs := by simpa [GuestbookLe] using hs

/-- What holds of every state `s` the walk reaches from `s₀`: the guestbook only grows, and the
buses entered so far are, without repetition, exactly the buses added to the guestbook. -/
structure Reached (s₀ s : MapState) : Prop where
  mono : GuestbookLe s₀ s
  nodup : s.entered.Nodup
  entered : ∀ i, i ∈ s.entered ↔ (s₀.info i).guestbook = false ∧ (s.info i).guestbook = true

theorem Reached.refl {s₀ : MapState} (h : s₀.entered = []) : Reached s₀ s₀ :=
  ⟨fun _ h => h, by simp [h], fun i => by cases (s₀.info i).guestbook <;> simp [h]⟩

theorem reached_walkInv (s₀ : MapState) : WalkInv (Reached s₀) where
  enter s bus hb hs := by
    have hnot : bus ∉ s.entered := fun h => by simp [((hs.entered bus).mp h).2] at hb
    refine ⟨(guestbookLe_walkInv s₀).enter s bus hb hs.mono,
      by simpa [List.nodup_append] using ⟨hs.nodup, hnot⟩, fun i => ?_⟩
    by_cases hi : i = bus
    · subst hi
      have : (s₀.info i).guestbook = false := by
        cases h₀ : (s₀.info i).guestbook
        · rfl
        · simp [hs.mono i h₀] at hb
      simp [this]
    · simp [hi, hs.entered i]
  setBug s r v hs := ⟨by simpa [GuestbookLe] using hs.mono, hs.nodup, by simpa using hs.entered⟩
  setVia s f r _ hs := ⟨by simpa [GuestbookLe] using hs.mono, hs.nodup, by simpa using hs.entered⟩

/-! ### Termination -/

theorem visitClaims_isSome {rec : Walker} {n : Nat}
    (hrec : ∀ s f lo hi, (s.info f).guestbook = false → s.unvisited ≤ n →
      ∃ s', rec s f lo hi = some s' ∧ GuestbookLe s s')
    (bus lo hi : Fin 256) :
    ∀ k bs s, s.unvisited ≤ n → ∃ s', visitClaims rec bus lo hi k bs s = some s'
  | _, [], s, _ => ⟨s, rfl⟩
  | k, b :: bs, s, hs => by
    have hstep : ∃ s₁, examine rec lo hi s ⟨bus, k⟩ b = some s₁ ∧ s₁.unvisited ≤ n := by
      unfold examine
      split_ifs with hv hw
      · exact ⟨_, rfl, by simpa [MapState.unvisited] using hs⟩
      · exact ⟨_, rfl, by simpa [MapState.unvisited] using hs⟩
      · obtain ⟨s₁, h₁, hr⟩ := hrec (s.setVia b.first ⟨bus, k⟩) b.first b.first b.last
          (by simpa using hv) (by simpa [MapState.unvisited] using hs)
        exact ⟨s₁, h₁, (MapState.unvisited_le hr).trans (by simpa [MapState.unvisited])⟩
    obtain ⟨s₁, h₁, hn⟩ := hstep
    obtain ⟨s', h'⟩ := visitClaims_isSome hrec bus lo hi (k + 1) bs s₁ hn
    exact ⟨s', by simp [visitClaims, h₁, h']⟩

/-- **Enough fuel.** From an unvisited bus, a walk with at least as many levels of fuel as there
are unvisited buses never runs out, whatever the claims say. -/
theorem doMapBridges_isSome :
    ∀ fuel s bus lo hi, (s.info bus).guestbook = false → s.unvisited ≤ fuel →
      ∃ s', doMapBridges fuel s bus lo hi = some s'
  | 0, s, bus, _, _, hb, hn => by
    have := s.unvisited_enter hb
    omega
  | fuel + 1, s, bus, lo, hi, hb, hn => by
    refine visitClaims_isSome (n := fuel) (fun s f lo hi hf hn => ?_) bus lo hi 0 _ _ ?_
    · obtain ⟨s', h'⟩ := doMapBridges_isSome fuel s f lo hi hf hn
      exact ⟨s', h', (guestbookLe_walkInv s).doMapBridges fuel s f lo hi s' hf h' fun _ h => h⟩
    · have := s.unvisited_enter hb
      omega

theorem startWalks_isSome : ∀ (is : List (Fin 256)) (s : MapState),
    ∃ s', startWalks 256 is s = some s'
  | [], s => ⟨s, rfl⟩
  | i :: is, s => by
    have hstart : ∃ s₁, (if (s.info i).«exists» = true ∧ (s.info i).guestbook = false then
        doMapBridges 256 s i 0 255 else some s) = some s₁ := by
      split_ifs with hg
      · exact doMapBridges_isSome 256 s i 0 255 hg.2
          ((Finset.card_le_univ _).trans_eq (Fintype.card_fin 256))
      · exact ⟨s, rfl⟩
    obtain ⟨s₁, h₁⟩ := hstart
    obtain ⟨s', h'⟩ := startWalks_isSome is s₁
    exact ⟨s', by simp only [startWalks, h₁, Option.some_bind, h']⟩

/-- **`map_bridges` terminates.** For every `bus_info` table, whatever its claims (a bus claiming
itself, several claims of one bus, cycles between buses), the walks of `map_bridges` finish
within 256 levels of nesting. The guestbook is never cleared, and `do_map_bridges` is entered
on each bus at most once: exactly on the buses it added to the guestbook. -/
theorem mapBridges_terminates (info : Fin 256 → BusInfo) :
    ∃ s', mapBridges 256 ⟨info, []⟩ = some s' ∧ Reached ⟨info, []⟩ s' := by
  obtain ⟨s', h⟩ := startWalks_isSome (List.finRange 256) ⟨info, []⟩
  exact ⟨s', h, (reached_walkInv _).startWalks 256 _ _ _ h (Reached.refl rfl)⟩

end BusMap
end AdnacomEe
