import AdnacomEe.BusMap.Forest

/-!
# `map_bridges` on a consistent bus hierarchy

`mapTheBus_forest` says what the walks of `map_bridges` leave whatever the claims say. This file
says what they leave when the claims are right (`Hierarchy`): every bridge claims buses above its
own bus, inside the range of the bridge through which its bus is entered; no bus is the first bus
of two claims; and claims sit only on buses that exist, as `do_map_bus` records them. On such a
table `map_bridges` writes the `bug` field of no claim, and the `via` table it leaves is exactly
the inverse of the claims: each claimed bus is entered through the one claim that names it, every
other bus through none. What the summary prints for a claim still depends on its `bug` byte as
`do_map_bus` left it, which this file does not constrain.

The walk from a bus covers the subtree of that bus (`Below`). `Covers` records what a walk did: the
buses it put in the guestbook and the buses whose `via` it pointed to their claim. Two walks
compose (`Covers.trans`) when the second writes no `via` the first wrote. The argument rests on one
fact about trees: two buses whose subtrees meet lie one below the other (`Hierarchy.chain`). So the
subtrees of two claims on one bus are disjoint (`Hierarchy.sibling`), and every bus lies below
exactly one unclaimed bus (`Top`), which the ascending loop of `map_bridges` reaches first.

* `visitClaims_covers`, `doMapBridges_covers`: a walk from a bus whose subtree is outside the
  guestbook covers that subtree, takes the third branch of `examine` at every claim, and points
  the `via` of every bus of the subtree but its root to the claim that names it.
* `startWalks_covers`: the walks started in ascending order cover the subtrees of the existing
  unclaimed buses.
* `mapBridges_complete`: on a fresh consistent table, `map_bridges` finishes, leaves every claim as
  it was, and leaves the inverse of the claims in `via`.
-/

namespace AdnacomEe
namespace BusMap

/-- A consistent claims table, the bus hierarchy firmware sets up. Every bridge claims buses above
its own bus, inside the range of the bridge through which its bus is entered; no bus is the first
bus of two claims, on one bus (`distinct`) or on two (`unique`); and claims sit only on buses that
exist. -/
structure Hierarchy (T : Fin 256 → BusInfo) : Prop where
  above : ∀ m, ∀ b ∈ (T m).bridges, m < b.first
  nested : ∀ m, ∀ b ∈ (T m).bridges, ∀ c ∈ (T b.first).bridges, c.last ≤ b.last
  distinct : ∀ m, ((T m).bridges.map BusBridge.first).Nodup
  unique : ∀ m, ∀ b ∈ (T m).bridges, ∀ m', ∀ b' ∈ (T m').bridges, b.first = b'.first → m = m'
  rooted : ∀ m, (T m).bridges ≠ [] → (T m).«exists» = true

instance (T : Fin 256 → BusInfo) : Decidable (Hierarchy T) :=
  decidable_of_iff ((∀ m, ∀ b ∈ (T m).bridges, m < b.first) ∧
      (∀ m, ∀ b ∈ (T m).bridges, ∀ c ∈ (T b.first).bridges, c.last ≤ b.last) ∧
      (∀ m, ((T m).bridges.map BusBridge.first).Nodup) ∧
      (∀ m, ∀ b ∈ (T m).bridges, ∀ m', ∀ b' ∈ (T m').bridges, b.first = b'.first → m = m') ∧
      ∀ m, (T m).bridges ≠ [] → (T m).«exists» = true)
    ⟨fun ⟨h₁, h₂, h₃, h₄, h₅⟩ => ⟨h₁, h₂, h₃, h₄, h₅⟩,
      fun ⟨h₁, h₂, h₃, h₄, h₅⟩ => ⟨h₁, h₂, h₃, h₄, h₅⟩⟩

/-- `Below T x y`: the bus `y` is `x`, or is reached from `x` through claims. -/
inductive Below (T : Fin 256 → BusInfo) (x : Fin 256) : Fin 256 → Prop
  | refl : Below T x x
  | claim {m : Fin 256} {b : BusBridge} : Below T x m → b ∈ (T m).bridges → Below T x b.first

/-- A bus that no claim names. -/
def Top (T : Fin 256 → BusInfo) (x : Fin 256) : Prop := ∀ m, ∀ b ∈ (T m).bridges, b.first ≠ x

/-! ### The subtrees of a consistent table -/

section Tree

variable {T : Fin 256 → BusInfo} {x y : Fin 256}

theorem Below.trans {z : Fin 256} (h₁ : Below T x y) (h₂ : Below T y z) : Below T x z := by
  induction h₂ with
  | refl => exact h₁
  | claim _ hb ih => exact ih.claim hb

/-- One level down from the top: `y` is `x` or lies below a claim of `x`. -/
theorem below_iff : Below T x y ↔ y = x ∨ ∃ b ∈ (T x).bridges, Below T b.first y := by
  refine ⟨fun h => ?_, ?_⟩
  · induction h with
    | refl => exact .inl rfl
    | claim _ hb ih =>
      rcases ih with rfl | ⟨c, hc, hcm⟩
      · exact .inr ⟨_, hb, .refl⟩
      · exact .inr ⟨c, hc, hcm.claim hb⟩
  · rintro (rfl | ⟨b, hb, h⟩)
    · exact .refl
    · exact (Below.refl.claim hb).trans h

/-- Only an unclaimed bus itself lies above an unclaimed bus. -/
theorem Below.top_eq (hy : Top T y) (h : Below T x y) : x = y := by
  cases h with
  | refl => rfl
  | claim _ hb => exact (hy _ _ hb rfl).elim

variable (hT : Hierarchy T)
include hT

/-- No bus is named by two claims. -/
theorem Hierarchy.ref_eq {r r' : ClaimRef} {b b' : BusBridge}
    (hb : (T r.bus).bridges[r.idx]? = some b) (hb' : (T r'.bus).bridges[r'.idx]? = some b')
    (he : b.first = b'.first) : r = r' := by
  obtain ⟨m, k⟩ := r
  obtain ⟨m', k'⟩ := r'
  obtain rfl := hT.unique m _ (List.getElem?_mem hb) m' _ (List.getElem?_mem hb') he
  have hk : k = k' := List.getElem?_inj
    (by simpa using (List.getElem?_eq_some_iff.mp hb).1) (hT.distinct m)
    (by simp only [List.getElem?_map, hb, hb', he, Option.map_some'])
  rw [hk]

theorem Hierarchy.le (h : Below T x y) : x ≤ y := by
  induction h with
  | refl => exact le_rfl
  | claim _ hb ih => exact ih.trans (hT.above _ _ hb).le

/-- The only way into a claimed bus from above is through the bus of its claim. -/
theorem Hierarchy.parent {m : Fin 256} {c : BusBridge} (hc : c ∈ (T m).bridges)
    (h : Below T x c.first) (hne : x ≠ c.first) : Below T x m := by
  generalize hy : c.first = y at h hne
  cases h with
  | refl => exact (hne rfl).elim
  | claim h' hb => rwa [hT.unique _ _ hc _ _ hb hy]

/-- Two buses with a common bus below both lie one below the other. -/
theorem Hierarchy.chain {x' : Fin 256} (h : Below T x y) (h' : Below T x' y) :
    Below T x x' ∨ Below T x' x := by
  induction h with
  | refl => exact .inr h'
  | @claim m b hm hb ih =>
    by_cases hx : x' = b.first
    · exact .inl (hx ▸ hm.claim hb)
    · exact ih (hT.parent hb h' hx)

/-- The subtrees of two claims of one bus that name different buses are disjoint. -/
theorem Hierarchy.sibling {m : Fin 256} {b b' : BusBridge} (hb : b ∈ (T m).bridges)
    (hb' : b' ∈ (T m).bridges) (hne : b.first ≠ b'.first) (h : Below T b.first y)
    (h' : Below T b'.first y) : False := by
  have below_sibling : ∀ {c c' : BusBridge}, c ∈ (T m).bridges → c' ∈ (T m).bridges →
      c.first ≠ c'.first → ¬ Below T c.first c'.first := fun hc hc' hne hcc =>
    (hT.above _ _ hc).not_le (hT.le (hT.parent hc' hcc hne))
  rcases hT.chain h h' with hl | hl
  · exact below_sibling hb hb' hne hl
  · exact below_sibling hb' hb hne.symm hl

/-- Two unclaimed buses above one bus are the same bus. -/
theorem Hierarchy.top_unique {x' : Fin 256} (hx : Top T x) (hx' : Top T x') (h : Below T x y)
    (h' : Below T x' y) : x = x' := by
  rcases hT.chain h h' with hl | hl
  · exact hl.top_eq hx'
  · exact (hl.top_eq hx).symm

/-- Every bus lies below an unclaimed bus. -/
theorem Hierarchy.exists_top (y : Fin 256) : ∃ x, Top T x ∧ Below T x y := by
  induction y using WellFoundedLT.induction with
  | _ y ih =>
    by_cases hy : Top T y
    · exact ⟨y, hy, .refl⟩
    · simp only [Top, not_forall, not_not] at hy
      obtain ⟨m, b, hb, rfl⟩ := hy
      obtain ⟨x, hx, hxm⟩ := ih m (hT.above m b hb)
      exact ⟨x, hx, hxm.claim hb⟩

/-- A bus above a bus with a claim has a claim, so it exists. -/
theorem Hierarchy.exists_of_below {b : BusBridge} (h : Below T x y) (hb : b ∈ (T y).bridges) :
    (T x).«exists» = true :=
  hT.rooted x <| by
    rcases below_iff.mp h with rfl | ⟨c, hc, _⟩
    · exact List.ne_nil_of_mem hb
    · exact List.ne_nil_of_mem hc

end Tree

/-! ### What a walk does -/

/-- What the walks from `s` to `s'` did, over the buses `R` and pointing the `via` of the buses
`V`: they left the claims and `exists` as they were, put the buses of `R` in the guestbook and no
other, and pointed the `via` of every bus of `V` to the claim of `T` that names it, leaving every
other `via` as it was. -/
structure Covers (T : Fin 256 → BusInfo) (R V : Fin 256 → Prop) (s s' : MapState) : Prop where
  bridges : ∀ i, (s'.info i).bridges = (s.info i).bridges
  «exists» : ∀ i, (s'.info i).«exists» = (s.info i).«exists»
  visited : ∀ y, R y → (s'.info y).guestbook = true
  guestbook : ∀ y, ¬ R y → (s'.info y).guestbook = (s.info y).guestbook
  via : ∀ r b, (T r.bus).bridges[r.idx]? = some b → V b.first → (s'.info b.first).via = some r
  via_frame : ∀ y, ¬ V y → (s'.info y).via = (s.info y).via

namespace Covers

variable {T : Fin 256 → BusInfo} {R R' V V' : Fin 256 → Prop} {s s₁ s' : MapState}

theorem refl (s : MapState) : Covers T (fun _ => False) (fun _ => False) s s :=
  ⟨fun _ => rfl, fun _ => rfl, fun _ h => h.elim, fun _ _ => rfl, fun _ _ _ h => h.elim,
    fun _ _ => rfl⟩

theorem congr (h : Covers T R V s s') (hR : ∀ y, R y ↔ R' y) (hV : ∀ y, V y ↔ V' y) :
    Covers T R' V' s s' :=
  ⟨h.bridges, h.exists, fun y hy => h.visited y ((hR y).mpr hy),
    fun y hy => h.guestbook y (mt (hR y).mp hy), fun r b hb hy => h.via r b hb ((hV _).mpr hy),
    fun y hy => h.via_frame y (mt (hV y).mp hy)⟩

/-- Two walks compose when the second points no `via` the first pointed. -/
theorem trans (h₁ : Covers T R V s s₁) (h₂ : Covers T R' V' s₁ s') (hd : ∀ y, V y → ¬ V' y) :
    Covers T (fun y => R y ∨ R' y) (fun y => V y ∨ V' y) s s' where
  bridges i := (h₂.bridges i).trans (h₁.bridges i)
  «exists» i := (h₂.exists i).trans (h₁.exists i)
  visited y hy := by
    by_cases h' : R' y
    · exact h₂.visited y h'
    · rw [h₂.guestbook y h']
      exact h₁.visited y (hy.resolve_right h')
  guestbook y hy := by
    rw [h₂.guestbook y fun h => hy (.inr h), h₁.guestbook y fun h => hy (.inl h)]
  via r b hb hy := by
    rcases hy with hy | hy
    · rw [h₂.via_frame _ (hd _ hy)]
      exact h₁.via r b hb hy
    · exact h₂.via r b hb hy
  via_frame y hy := by
    rw [h₂.via_frame y fun h => hy (.inr h), h₁.via_frame y fun h => hy (.inl h)]

/-- `bi->guestbook = 1`. -/
theorem enter (s : MapState) (bus : Fin 256) :
    Covers T (· = bus) (fun _ => False) s (s.enter bus) where
  bridges _ := by simp
  «exists» _ := by simp
  visited y hy := by simp [hy]
  guestbook y hy := by simp [hy]
  via _ _ _ h := h.elim
  via_frame _ _ := by simp

/-- `bus_info[b->first].via = b`, for a claim of a consistent table. -/
theorem setVia (hT : Hierarchy T) (s : MapState) {r : ClaimRef}
    {b : BusBridge} (hb : (T r.bus).bridges[r.idx]? = some b) :
    Covers T (fun _ => False) (· = b.first) s (s.setVia b.first r) where
  bridges _ := by simp
  «exists» _ := by simp
  visited _ h := h.elim
  guestbook _ _ := by simp
  via r' b' hb' he := by
    rw [he, hT.ref_eq hb' hb he]
    simp
  via_frame y hy := by simp [hy]

end Covers

/-! ### The walk covers the subtree -/

section Walk

variable {T : Fin 256 → BusInfo}

/-- The loop of `do_map_bridges` over the claims `bs` of `bus` from position `k` on, when nothing
below them is in the guestbook and each lies in the window: every claim takes the third branch of
`examine`, so the loop covers the union of their subtrees and points the `via` of every bus of it
to its claim. -/
theorem visitClaims_covers (hT : Hierarchy T) {rec : Walker}
    (hrec : ∀ s f lo hi s', rec s f lo hi = some s' → (∀ i, (s.info i).bridges = (T i).bridges) →
      (∀ y, Below T f y → (s.info y).guestbook = false) →
      (∀ c ∈ (T f).bridges, lo ≤ c.first ∧ c.last ≤ hi) →
      Covers T (Below T f) (fun y => Below T f y ∧ y ≠ f) s s')
    (bus lo hi : Fin 256) :
    ∀ k bs s s', visitClaims rec bus lo hi k bs s = some s' → (T bus).bridges.drop k = bs →
      (∀ i, (s.info i).bridges = (T i).bridges) →
      (∀ b ∈ bs, ∀ y, Below T b.first y → (s.info y).guestbook = false) →
      (∀ b ∈ bs, lo ≤ b.first ∧ b.last ≤ hi) →
      Covers T (fun y => ∃ b ∈ bs, Below T b.first y) (fun y => ∃ b ∈ bs, Below T b.first y) s s'
  | _, [], s, s', h, _, _, _, _ => by
    cases h
    exact (Covers.refl s).congr (by simp) (by simp)
  | k, b :: bs, s, s', h, hbs, hag, hfree, hwin => by
    obtain ⟨s₁, h₁, h₂⟩ := Option.bind_eq_some.mp h
    have hmem : ∀ c ∈ b :: bs, c ∈ (T bus).bridges := fun c hc =>
      List.mem_of_mem_drop (hbs ▸ hc)
    have hb : (T bus).bridges[k]? = some b := by
      rw [← Nat.add_zero k, ← List.getElem?_drop, hbs, List.getElem?_cons_zero]
    have hnd : b.first ∉ bs.map BusBridge.first := by
      have := (hT.distinct bus).sublist ((List.drop_sublist k _).map BusBridge.first)
      rw [hbs, List.map_cons] at this
      exact (List.nodup_cons.mp this).1
    have hsib : ∀ c ∈ bs, ∀ y, Below T b.first y → ¬ Below T c.first y := fun c hc _ =>
      hT.sibling (hmem b (List.mem_cons_self _ _)) (hmem c (List.mem_cons_of_mem _ hc))
        fun he => hnd (he ▸ List.mem_map_of_mem _ hc)
    -- the claim `b` is entered: its bus is outside the guestbook and its range in the window
    obtain ⟨hlo, hhi⟩ := hwin b (List.mem_cons_self _ _)
    have hgb : (s.info b.first).guestbook = false := hfree b (List.mem_cons_self _ _) _ .refl
    rw [examine, if_neg (by simp [hgb]), if_neg (by simpa only [not_or, not_lt] using ⟨hlo, hhi⟩)]
      at h₁
    have hsub := hrec _ _ _ _ _ h₁ (by simpa using hag)
      (by simpa using hfree b (List.mem_cons_self _ _))
      fun c hc => ⟨(hT.above _ _ hc).le, hT.nested _ _ (hmem b (List.mem_cons_self _ _)) _ hc⟩
    have c₁ : Covers T (Below T b.first) (Below T b.first) s s₁ :=
      ((Covers.setVia hT s hb).trans hsub fun _ h h' => h'.2 h).congr (fun _ => (false_or _).to_iff)
        fun y => ⟨by rintro (rfl | ⟨h, -⟩); exacts [.refl, h],
          fun h => (em (y = b.first)).imp id fun hne => ⟨h, hne⟩⟩
    -- the rest of the loop, from a state where only the subtree of `b` was added
    have c₂ := visitClaims_covers hT hrec bus lo hi (k + 1) bs s₁ s' h₂
      (by rw [← List.tail_drop, hbs]; rfl) (fun i => (c₁.bridges i).trans (hag i))
      (fun c hc y hy => (c₁.guestbook y fun h => hsib c hc y h hy).trans
        (hfree c (List.mem_cons_of_mem _ hc) y hy))
      fun c hc => hwin c (List.mem_cons_of_mem _ hc)
    have hunion : ∀ y, ((Below T b.first y) ∨ ∃ c ∈ bs, Below T c.first y) ↔
        ∃ c ∈ b :: bs, Below T c.first y := fun _ => by simp
    exact (c₁.trans c₂ fun y h ⟨c, hc, h'⟩ => hsib c hc y h h').congr hunion hunion

/-- **A walk covers the subtree of its bus.** `do_map_bridges(bus, min, max)`, on a bus whose
subtree is outside the guestbook and whose claims lie in `[min, max]`, puts the subtree in the
guestbook, tags no claim, and points the `via` of every bus of the subtree but `bus` to its
claim. -/
theorem doMapBridges_covers (hT : Hierarchy T) :
    ∀ fuel s bus lo hi s', doMapBridges fuel s bus lo hi = some s' →
      (∀ i, (s.info i).bridges = (T i).bridges) →
      (∀ y, Below T bus y → (s.info y).guestbook = false) →
      (∀ c ∈ (T bus).bridges, lo ≤ c.first ∧ c.last ≤ hi) →
      Covers T (Below T bus) (fun y => Below T bus y ∧ y ≠ bus) s s'
  | 0, _, _, _, _, _, h, _, _, _ => by cases h
  | fuel + 1, s, bus, lo, hi, s', h, hag, hfree, hwin => by
    rw [doMapBridges, hag bus] at h
    have hlt : ∀ c ∈ (T bus).bridges, ∀ y, Below T c.first y → bus < y := fun c hc _ hy =>
      (hT.above _ _ hc).trans_le (hT.le hy)
    have hclaims := visitClaims_covers hT (doMapBridges_covers hT fuel) bus lo hi 0 _ _ s' h rfl
      (by simpa using hag)
      (fun c hc y hy => by simp [(hlt c hc y hy).ne', hfree y ((Below.refl.claim hc).trans hy)])
      hwin
    refine ((Covers.enter s bus).trans hclaims fun _ h => h.elim).congr
      (fun _ => below_iff.symm) fun y =>
        ⟨?_, fun ⟨h, hne⟩ => .inr ((below_iff.mp h).resolve_left hne)⟩
    rintro (h | ⟨c, hc, hy⟩)
    · exact h.elim
    · exact ⟨below_iff.mpr (.inr ⟨c, hc, hy⟩), (hlt c hc y hy).ne'⟩

/-- The buses below an existing unclaimed bus `x` with `D x`. -/
def Rooted (T : Fin 256 → BusInfo) (D : Fin 256 → Prop) (y : Fin 256) : Prop :=
  ∃ x, D x ∧ Top T x ∧ (T x).«exists» = true ∧ Below T x y

/-- **The loop of `map_bridges`.** Started in ascending order from a fresh table, the walks cover
the subtrees of the existing unclaimed buses and point the `via` of their claimed buses: when the
loop reaches a claimed bus, the walk from the unclaimed bus above it, a lower bus, has already
entered it. -/
theorem startWalks_covers (hT : Hierarchy T) (hfresh : ∀ i, (T i).guestbook = false)
    (fuel : Nat) : ∀ is s s', startWalks fuel is s = some s' → is.Pairwise (· < ·) →
      Covers T (Rooted T (· ∉ is)) (fun y => Rooted T (· ∉ is) y ∧ ¬ Top T y) ⟨T, []⟩ s →
      Covers T (Rooted T (· ∉ [])) (fun y => Rooted T (· ∉ []) y ∧ ¬ Top T y) ⟨T, []⟩ s'
  | [], s, s', h, _, hc => by
    cases h
    exact hc
  | i :: is, s, s', h, hsort, hc => by
    obtain ⟨s₁, h₁, h₂⟩ := Option.bind_eq_some.mp h
    refine startWalks_covers hT hfresh fuel is s₁ s' h₂ hsort.of_cons ?_
    have hi : i ∉ is := fun h => lt_irrefl i (List.rel_of_pairwise_cons hsort h)
    have hmono : ∀ {x}, x ∉ i :: is → x ∉ is := fun hx hx' => hx (List.mem_cons_of_mem _ hx')
    -- a bus below an earlier root is not below `i`, if `i` is unclaimed
    have hnot : ∀ y, Top T i → Below T i y → ¬ Rooted T (· ∉ i :: is) y :=
      fun y hti hiy ⟨x, hx, htx, _, hxy⟩ =>
        hx (hT.top_unique htx hti hxy hiy ▸ List.mem_cons_self _ _)
    have hgb : ∀ y, ¬ Rooted T (· ∉ i :: is) y → (s.info y).guestbook = false := fun y hy =>
      (hc.guestbook y hy).trans (hfresh y)
    split_ifs at h₁ with hgo
    · -- `i` is unclaimed: a claimed bus lies below a lower unclaimed bus, already walked
      have hti : Top T i := by
        by_contra hnt
        obtain ⟨x, htx, hxi⟩ := hT.exists_top i
        have hxne : x ≠ i := fun he => hnt (he ▸ htx)
        obtain ⟨c, hc', -⟩ := (below_iff.mp hxi).resolve_left hxne.symm
        have hx : x ∉ i :: is := by
          simp only [List.mem_cons, not_or]
          exact ⟨hxne, fun hx => (List.rel_of_pairwise_cons hsort hx).not_lt
            (lt_of_le_of_ne (hT.le hxi) hxne)⟩
        have := hc.visited i ⟨x, hx, htx, hT.rooted x (List.ne_nil_of_mem hc'), hxi⟩
        simp [hgo.2] at this
      have hwalk := (doMapBridges_covers hT fuel s i 0 255 s₁ h₁ (fun j => hc.bridges j)
        (fun y hy => hgb y (hnot y hti hy)) fun c _ => ⟨Fin.zero_le _, Fin.le_last _⟩).congr
        (fun _ => Iff.rfl) fun y => and_congr_right fun hy =>
          ⟨fun hne ht => hne (hy.top_eq ht).symm, fun hnt he => hnt (he ▸ hti)⟩
      have hR : ∀ y, Rooted T (· ∉ i :: is) y ∨ Below T i y ↔ Rooted T (· ∉ is) y := by
        refine fun y => ⟨?_, fun ⟨x, hx, h⟩ => ?_⟩
        · rintro (⟨x, hx, h⟩ | hy)
          exacts [⟨x, hmono hx, h⟩, ⟨i, hi, hti, (hc.exists i).symm.trans hgo.1, hy⟩]
        · by_cases hxi : x = i
          exacts [.inr (hxi ▸ h.2.2), .inl ⟨x, by simp [hxi, hx], h⟩]
      exact (hc.trans hwalk fun y hy hy' => hnot y hti hy'.1 hy.1).congr hR fun y =>
        or_and_right.symm.trans (and_congr_left' (hR y))
    · -- `i` is skipped: it does not exist, or an earlier walk entered it, so it is claimed
      cases h₁
      have hR : ∀ y, Rooted T (· ∉ i :: is) y ↔ Rooted T (· ∉ is) y := by
        refine fun y => ⟨fun ⟨x, hx, h⟩ => ⟨x, hmono hx, h⟩, fun ⟨x, hx, htx, hex, h⟩ => ?_⟩
        refine ⟨x, fun hxi => ?_, htx, hex, h⟩
        rcases List.mem_cons.mp hxi with rfl | hx'
        · exact hgo ⟨(hc.exists x).trans hex, hgb x (hnot x htx .refl)⟩
        · exact hx hx'
      exact hc.congr hR fun y => and_congr_left' (hR y)

end Walk

/-! ### `map_bridges` on a consistent table -/

/-- **`map_bridges` writes no tag on a consistent table.** On a fresh table whose claims form a
consistent bus hierarchy, `map_bridges` finishes, writes the `bug` field of no claim (every claim
is as `do_map_bus` left it, so the summary prints only the tags already in its `bug` bytes), and
the `via` table it leaves is exactly the inverse of the claims: the summary says of every claimed
bus that it was entered through the one claim that names it, and of no other bus. -/
theorem mapBridges_complete (T : Fin 256 → BusInfo) (hT : Hierarchy T)
    (hfresh : ∀ i, (T i).Fresh) :
    ∃ s', mapBridges 256 ⟨T, []⟩ = some s' ∧ (∀ i, (s'.info i).bridges = (T i).bridges) ∧
      ∀ i r, (s'.info i).via = some r ↔
        ∃ b, (T r.bus).bridges[r.idx]? = some b ∧ b.first = i := by
  obtain ⟨s', h, -⟩ := mapBridges_terminates T
  have hc := startWalks_covers hT (fun i => (hfresh i).1) 256 _ _ _ h
    (List.pairwise_lt_finRange 256)
    ((Covers.refl _).congr (fun _ => by simp [Rooted, List.mem_finRange])
      fun _ => by simp [Rooted, List.mem_finRange])
  -- a claimed bus lies below an existing unclaimed bus
  have hclaimed : ∀ (r : ClaimRef) (b : BusBridge), (T r.bus).bridges[r.idx]? = some b →
      Rooted T (· ∉ []) b.first ∧ ¬ Top T b.first := fun r b hb => by
    have hmem := List.getElem?_mem hb
    obtain ⟨x, htx, hx⟩ := hT.exists_top b.first
    have hne : x ≠ b.first := fun he => htx _ _ hmem he.symm
    exact ⟨⟨x, List.not_mem_nil x, htx, hT.exists_of_below (hT.parent hmem hx hne) hmem, hx⟩,
      fun ht => ht _ _ hmem rfl⟩
  refine ⟨s', h, hc.bridges, fun i r => ⟨fun hr => ?_, ?_⟩⟩
  · -- a `via` that is set was written by a walk, so `i` is claimed, and by one claim only
    by_cases hV : Rooted T (· ∉ []) i ∧ ¬ Top T i
    · obtain ⟨m, b, hmem, rfl⟩ : ∃ m, ∃ b ∈ (T m).bridges, b.first = i := by
        simpa only [Top, not_forall, not_not, exists_prop] using hV.2
      obtain ⟨k, hk⟩ := List.mem_iff_getElem?.mp hmem
      have := hc.via ⟨m, k⟩ b hk (hclaimed ⟨m, k⟩ b hk)
      rw [hr, Option.some_inj] at this
      exact ⟨b, this ▸ hk, rfl⟩
    · rw [hc.via_frame i hV, (hfresh i).2] at hr
      cases hr
  · rintro ⟨b, hb, rfl⟩
    exact hc.via r b hb (hclaimed r b hb)

/-- A root complex with a switch: bus 0 holds a bridge to buses 1–2, bus 1 a bridge to bus 2. -/
def switchTable (i : Fin 256) : BusInfo :=
  if i = 0 then ⟨true, false, [⟨0, 1, 0, 1, 2, 0⟩], none⟩
  else if i = 1 then ⟨true, false, [⟨1, 0, 0, 2, 2, 0⟩], none⟩
  else if i = 2 then ⟨true, false, [], none⟩
  else BusInfo.zero

set_option maxRecDepth 4000 in
theorem mapBridges_complete_switchTable :
    Hierarchy switchTable ∧ (∀ i, (switchTable i).Fresh) ∧
      ∃ s', mapBridges 256 ⟨switchTable, []⟩ = some s' ∧
        (∀ i, (s'.info i).bridges = (switchTable i).bridges) ∧
        ∀ i r, (s'.info i).via = some r ↔
          ∃ b, (switchTable r.bus).bridges[r.idx]? = some b ∧ b.first = i :=
  have hT : Hierarchy switchTable := by decide
  have hfresh : ∀ i, (switchTable i).Fresh := by unfold BusInfo.Fresh; decide
  ⟨hT, hfresh, mapBridges_complete switchTable hT hfresh⟩

end BusMap
end AdnacomEe
