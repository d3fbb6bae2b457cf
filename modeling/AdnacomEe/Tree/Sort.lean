import AdnacomEe.Tree.Grow
import Mathlib.Data.List.Sort

/-!
# `sort_them`: the registry in `compare_them` order

`lspci.c` and `part_000` hold the same `compare_them` and `sort_them`, word for word; the
definitions here model both. `sort_them` counts the devices of `first_dev`, copies their pointers
into an `alloca`ed `index`, sorts `index` with the C library's `qsort` under `compare_them`, and
relinks the devices in that order: `last_dev` starts at `&first_dev`, each device is stored
through it and `last_dev` moves to that device's `next`, and a final store writes `NULL`.

The device list is `DevList`: the head `first_dev` and the `next` field of every device, devices
being their addresses. `last_dev` is a `LastRef`, as for a bus in `grow_tree`. `qsort` is not
among the sources; it is a parameter with the C library's contract (`QsortSpec`): for a
comparator that orders the objects consistently, the array it leaves is a permutation of the one
it got, in non-decreasing order. `List.mergeSort` meets it (`mergeQsort_spec`), so the contract
can be met.

* `compareThem_eq_then`, `compareThem_consistent`: `compare_them` is the lexicographic comparison
  of `(domain, bus, dev, func)`, a comparator `qsort` can sort by.
* `relink_linked`: the relinking loop leaves exactly the sorted index linked from `first_dev`.
* `sortThem_sorts_registry`: for every `NULL`-terminated list of devices, `sort_them` returns and
  leaves a `NULL`-terminated list with the same devices, each once, in `compare_them` order.
* `sortThem_sorted_of_distinct`: when no two devices share an address, the list is strictly
  sorted, the order `grow_tree` expects (`Sorted`).
* `sortThem_independent_of_qsort`: then every `qsort` that keeps the contract leaves the same list.
-/

namespace AdnacomEe
namespace Tree

/-! ### `compare_them` -/

theorem ite_compare_nat (x y : Nat) (k : Ordering) :
    (if x < y then Ordering.lt else if x > y then .gt else k) = (compare x y).then k := by
  rcases Nat.lt_trichotomy x y with h | rfl | h
  · rw [if_pos h, Nat.compare_eq_lt.2 h]; rfl
  · rw [if_neg (Nat.lt_irrefl x), if_neg (Nat.lt_irrefl x), Nat.compare_eq_eq.2 rfl]; rfl
  · rw [if_neg (Nat.not_lt.2 h.le), if_pos h, Nat.compare_eq_gt.2 h]; rfl

/-- **`compare_them` is lexicographic** on `(domain, bus, dev, func)`. -/
theorem compareThem_eq_then (a b : Dev) :
    compareThem a b = (compare a.domain b.domain).then ((compare a.bus b.bus).then
      ((compare a.dev b.dev).then ((compare a.func b.func).then .eq))) := by
  simp only [compareThem, ite_compare_nat]

theorem compareThem_eq_gt_iff (a b : Dev) : compareThem a b = .gt ↔
    b.domain < a.domain ∨ a.domain = b.domain ∧ (b.bus < a.bus ∨ a.bus = b.bus ∧
      (b.dev < a.dev ∨ a.dev = b.dev ∧ b.func < a.func)) := by
  simp only [compareThem_eq_then, Ordering.then_eq_gt, Nat.compare_eq_gt, Nat.compare_eq_eq]
  simp

theorem compareThem_eq_eq_iff (a b : Dev) : compareThem a b = .eq ↔
    a.domain = b.domain ∧ a.bus = b.bus ∧ a.dev = b.dev ∧ a.func = b.func := by
  simp only [compareThem_eq_then, Ordering.then_eq_eq, Nat.compare_eq_eq, and_true]

/-- A comparator the C library's `qsort` can sort by: swapping the arguments swaps the answer,
and "not greater" is transitive, so it orders the objects totally up to ties. -/
structure Consistent {α : Type} (cmp : α → α → Ordering) : Prop where
  swap : ∀ a b, (cmp a b).swap = cmp b a
  trans : ∀ a b c, cmp a b ≠ .gt → cmp b c ≠ .gt → cmp a c ≠ .gt

theorem compareThem_consistent : Consistent compareThem where
  swap a b := by
    simp only [compareThem_eq_then, Ordering.swap_then, Nat.compare_swap]
    rfl
  trans a b c hab hbc := by
    simp only [ne_eq, compareThem_eq_gt_iff] at *
    omega

theorem Consistent.comap {α β : Type} {cmp : β → β → Ordering} (h : Consistent cmp) (f : α → β) :
    Consistent fun x y => cmp (f x) (f y) :=
  ⟨fun a b => h.swap (f a) (f b), fun a b c => h.trans (f a) (f b) (f c)⟩

theorem Consistent.total {α : Type} {cmp : α → α → Ordering} (h : Consistent cmp) (a b : α) :
    cmp a b ≠ .gt ∨ cmp b a ≠ .gt := by
  by_cases hab : cmp a b = .gt
  · exact .inr (by rw [← h.swap, hab]; decide)
  · exact .inl hab

/-! ### `qsort` -/

/-- What the C library promises of `qsort(base, n, size, cmp)`, for a consistent `cmp`: the array
it leaves is a permutation of the one it got, and in non-decreasing order. -/
structure QsortSpec (qsort : (Nat → Nat → Ordering) → List Nat → List Nat) : Prop where
  perm : ∀ cmp l, Consistent cmp → (qsort cmp l).Perm l
  sorted : ∀ cmp l, Consistent cmp → (qsort cmp l).Pairwise fun x y => cmp x y ≠ .gt

/-- A `qsort` by merge sort. -/
def mergeQsort (cmp : Nat → Nat → Ordering) (l : List Nat) : List Nat :=
  l.mergeSort fun x y => decide (cmp x y ≠ .gt)

theorem mergeQsort_spec : QsortSpec mergeQsort where
  perm cmp l _ := List.mergeSort_perm l _
  sorted cmp l h := by
    have hs := @List.sorted_mergeSort _ (fun x y => decide (cmp x y ≠ .gt))
      (fun a b c hab hbc => by simpa using h.trans a b c (by simpa using hab) (by simpa using hbc))
      (fun a b => by simpa using h.total a b) l
    exact hs.imp fun h => by simpa using h

/-! ### The device list -/

/-- The list `first_dev`: its head, and the `next` field of every device. -/
structure DevList where
  first : Option Nat
  next : Nat → Option Nat

namespace DevList

/-- `*last_dev`. -/
def load (l : DevList) : LastRef → Option Nat
  | .head => l.first
  | .next d => l.next d

/-- `*last_dev = v`. -/
def store (l : DevList) : LastRef → Option Nat → DevList
  | .head, v => { l with first := v }
  | .next d, v => { l with next := Function.update l.next d v }

@[simp] theorem load_store_self (l : DevList) (r : LastRef) (v : Option Nat) :
    (l.store r v).load r = v := by
  cases r <;> simp [store, load]

theorem load_store_of_ne (l : DevList) {r r' : LastRef} (h : r ≠ r') (v : Option Nat) :
    (l.store r' v).load r = l.load r := by
  cases r <;> cases r' <;> simp_all [store, load, Function.update_apply]

end DevList

/-- `for (d = first_dev; d; d = d->next)`, for at most `fuel` devices: the devices met, or `none`
when the walk has not reached `NULL`. -/
def walk (next : Nat → Option Nat) : Nat → Option Nat → Option (List Nat)
  | _, none => some []
  | 0, some _ => none
  | fuel + 1, some d => (walk next fuel (next d)).map (d :: ·)

/-- The loop of `sort_them` over `index`: `*last_dev = *h; last_dev = &(*h)->next`, then
`*last_dev = NULL`. -/
def relink : List Nat → LastRef → DevList → DevList
  | [], r, l => l.store r none
  | h :: hs, r, l => relink hs (.next h) (l.store r (some h))

/-- **`sort_them`**, with `qsort` as a parameter. Both loops over `first_dev` walk the same list:
the first counts it, the second copies it into `index`. -/
def sortThem (qsort : (Nat → Nat → Ordering) → List Nat → List Nat) (dev : Nat → Dev)
    (fuel : Nat) (l : DevList) : Option DevList :=
  (walk l.next fuel l.first).map fun index =>
    relink (qsort (fun x y => compareThem (dev x) (dev y)) index) .head l

/-! ### Linked lists -/

theorem linked_unique {next : Nat → Option Nat} : ∀ {s : Option Nat} {l l' : List Nat},
    Linked next s l → Linked next s l' → l = l'
  | _, [], [], _, _ => rfl
  | _, [], _ :: _, h, h' => by cases h.symm.trans h'.1
  | _, _ :: _, [], h, h' => by cases h.1.symm.trans h'
  | _, d :: l, d' :: l', ⟨hs, h⟩, ⟨hs', h'⟩ => by
    obtain rfl : d = d' := Option.some.inj (hs.symm.trans hs')
    rw [linked_unique h h']

theorem linked_suffix {next : Nat → Option Nat} {d : Nat} {m : List Nat} :
    ∀ {s : Option Nat} (p : List Nat), Linked next s (p ++ d :: m) → Linked next (some d) (d :: m)
  | _, [], ⟨_, h⟩ => ⟨rfl, h⟩
  | _, _ :: p, ⟨_, h⟩ => linked_suffix p h

/-- A list that ends in `NULL` meets no device twice. -/
theorem linked_nodup {next : Nat → Option Nat} : ∀ {s : Option Nat} {l : List Nat},
    Linked next s l → l.Nodup
  | _, [], _ => List.nodup_nil
  | _, d :: l, ⟨hs, h⟩ => by
    refine List.nodup_cons.2 ⟨fun hd => ?_, linked_nodup h⟩
    obtain ⟨p, q, rfl⟩ := List.append_of_mem hd
    have := linked_unique (linked_suffix p h) (show Linked next (some d) (d :: (p ++ d :: q)) from ⟨rfl, h⟩)
    have hl := congrArg List.length this
    simp at hl
    omega

/-- The walk of a list that ends in `NULL` meets its devices, given the fuel. -/
theorem walk_of_linked {next : Nat → Option Nat} : ∀ {s : Option Nat} {l : List Nat} {fuel : Nat},
    Linked next s l → l.length ≤ fuel → walk next fuel s = some l
  | _, [], fuel, h, _ => by rw [h]; cases fuel <;> rfl
  | _, _ :: _, 0, _, hf => absurd hf (by simp)
  | _, d :: l, fuel + 1, ⟨hs, h⟩, hf => by
    rw [hs, walk, walk_of_linked h (by simpa using hf)]
    rfl

/-! ### The relinking loop -/

/-- **Frame**: the loop writes only through `r` and the `next` fields of the devices it stores. -/
theorem relink_load_of_ne : ∀ (hs : List Nat) {r r' : LastRef} (l : DevList), r ≠ r' →
    (∀ h ∈ hs, r ≠ .next h) → (relink hs r' l).load r = l.load r
  | [], _, _, l, hne, _ => l.load_store_of_ne hne none
  | h :: hs, r, r', l, hne, hh => by
    rw [relink, relink_load_of_ne hs _ (hh h (.head _)) fun h' hm => hh h' (.tail _ hm),
      l.load_store_of_ne hne]

/-- **The relinking loop** leaves the devices of `index` linked from `*r`, in order, then
`NULL`. -/
theorem relink_linked : ∀ (index : List Nat) {r : LastRef} (l : DevList), index.Nodup →
    (∀ h ∈ index, r ≠ .next h) →
    Linked (relink index r l).next ((relink index r l).load r) index
  | [], _, l, _, _ => l.load_store_self _ none
  | h :: hs, r, l, hn, hr => by
    have hh : h ∉ hs := (List.nodup_cons.1 hn).1
    refine ⟨?_, ?_⟩
    · rw [relink, relink_load_of_ne hs _ (hr h (.head _)) fun h' hm => hr h' (.tail _ hm),
        l.load_store_self]
    · exact relink_linked hs _ (List.nodup_cons.1 hn).2 fun h' hm heq =>
        hh (LastRef.next.inj heq ▸ hm)

/-! ### `sort_them` -/

/-- What `sort_them` leaves: the devices of the input, each once, linked from `first_dev` in
non-decreasing `compare_them` order. -/
theorem sortThem_spec {qsort : (Nat → Nat → Ordering) → List Nat → List Nat}
    (hq : QsortSpec qsort) (dev : Nat → Dev) {l : DevList} {ds : List Nat}
    (hl : Linked l.next l.first ds) {fuel : Nat} (hf : ds.length ≤ fuel) :
    ∃ l' ds', sortThem qsort dev fuel l = some l' ∧ Linked l'.next l'.first ds' ∧ ds'.Perm ds ∧
      ds'.Nodup ∧ ds'.Pairwise fun x y => compareThem (dev x) (dev y) ≠ .gt := by
  have hc := compareThem_consistent.comap dev
  have hp := hq.perm _ ds hc
  have hn := hp.nodup_iff.2 (linked_nodup hl)
  exact ⟨_, _, by rw [sortThem, walk_of_linked hl hf]; rfl, relink_linked _ (r := .head) l hn (by simp),
    hp, hn, hq.sorted _ ds hc⟩

/-- **`sort_them` sorts the registry.** For every `NULL`-terminated list of devices and a `qsort`
that keeps its contract, `sort_them` returns, and `first_dev` then runs through a
`NULL`-terminated list that is a permutation of the input, each device once, in non-decreasing
`compare_them` order; `compare_them` is the lexicographic comparison of
`(domain, bus, dev, func)`, and a consistent comparator. -/
theorem sortThem_sorts_registry {qsort : (Nat → Nat → Ordering) → List Nat → List Nat}
    (hq : QsortSpec qsort) (dev : Nat → Dev) (l : DevList) (ds : List Nat)
    (hl : Linked l.next l.first ds) (fuel : Nat) (hf : ds.length ≤ fuel) :
    (∃ l' ds', sortThem qsort dev fuel l = some l' ∧ Linked l'.next l'.first ds' ∧ ds'.Perm ds ∧
      ds'.Nodup ∧ ds'.Pairwise fun x y => compareThem (dev x) (dev y) ≠ .gt) ∧
    (∀ a b, compareThem a b = (compare a.domain b.domain).then ((compare a.bus b.bus).then
      ((compare a.dev b.dev).then ((compare a.func b.func).then .eq)))) ∧
    Consistent compareThem :=
  ⟨sortThem_spec hq dev hl hf, compareThem_eq_then, compareThem_consistent⟩

/-- Two devices at `00:01.0` and `00:00.0`, linked in that order. -/
def pairDev : Nat → Dev := fun d => ⟨0, 1 - d, 0, 0, fun _ => 0⟩

def pairList : DevList := ⟨some 0, fun d => if d = 0 then some 1 else none⟩

theorem sortThem_sorts_registry_pair :
    QsortSpec mergeQsort ∧ Linked pairList.next pairList.first [0, 1] ∧ [0, 1].length ≤ 2 ∧
    (∃ l' ds', sortThem mergeQsort pairDev 2 pairList = some l' ∧ Linked l'.next l'.first ds' ∧
      ds'.Perm [0, 1] ∧ ds'.Nodup ∧ ds'.Pairwise fun x y => compareThem (pairDev x) (pairDev y) ≠ .gt) ∧
    (∀ a b, compareThem a b = (compare a.domain b.domain).then ((compare a.bus b.bus).then
      ((compare a.dev b.dev).then ((compare a.func b.func).then .eq)))) ∧
    Consistent compareThem :=
  ⟨mergeQsort_spec, ⟨rfl, rfl, rfl⟩, le_rfl,
    sortThem_sorts_registry mergeQsort_spec pairDev pairList [0, 1] ⟨rfl, rfl, rfl⟩ 2 le_rfl⟩

/-- A list of distinct devices at distinct addresses, in non-decreasing `compare_them` order, is in
increasing order. -/
theorem pairwise_lt_of_distinct (dev : Nat → Dev) {ds ds' : List Nat} (hp : ds'.Perm ds)
    (hn : ds'.Nodup)
    (hd : (ds.map fun x => ((dev x).domain, (dev x).bus, (dev x).dev, (dev x).func)).Nodup)
    (hpw : ds'.Pairwise fun x y => compareThem (dev x) (dev y) ≠ .gt) :
    ds'.Pairwise fun x y => compareThem (dev x) (dev y) = .lt := by
  refine (hpw.and hn).imp_of_mem fun {x y} hx hy ⟨hgt, hne⟩ => ?_
  have heq : compareThem (dev x) (dev y) ≠ .eq := fun h => hne <|
    List.inj_on_of_nodup_map hd (hp.mem_iff.1 hx) (hp.mem_iff.1 hy) (by
      obtain ⟨h₁, h₂, h₃, h₄⟩ := (compareThem_eq_eq_iff _ _).1 h
      rw [h₁, h₂, h₃, h₄])
  revert hgt heq
  cases compareThem (dev x) (dev y) <;> simp

/-- **The order `grow_tree` expects.** When no two devices of the list share an address, the list
`sort_them` leaves holds the same devices, strictly increasing under `compare_them`. -/
theorem sortThem_sorted_of_distinct {qsort : (Nat → Nat → Ordering) → List Nat → List Nat}
    (hq : QsortSpec qsort) (dev : Nat → Dev) {l : DevList} {ds : List Nat}
    (hl : Linked l.next l.first ds)
    (hd : (ds.map fun x => ((dev x).domain, (dev x).bus, (dev x).dev, (dev x).func)).Nodup) :
    ∃ l' ds', sortThem qsort dev ds.length l = some l' ∧ Linked l'.next l'.first ds' ∧
      ds'.Perm ds ∧ Sorted (ds'.map dev) := by
  obtain ⟨l', ds', hs, hl', hp, hn, hpw⟩ := sortThem_spec hq dev hl le_rfl
  exact ⟨l', ds', hs, hl', hp, List.pairwise_map.2 (pairwise_lt_of_distinct dev hp hn hd hpw)⟩

/-- **The order does not depend on `qsort`.** When no two devices of the list share an address,
every `qsort` that keeps the C library's contract makes `sort_them` leave the same list, though
`qsort` is not stable: the order `lspci` prints the devices in is the one `compare_them` fixes,
whatever the C library. -/
theorem sortThem_independent_of_qsort {q₁ q₂ : (Nat → Nat → Ordering) → List Nat → List Nat}
    (h₁ : QsortSpec q₁) (h₂ : QsortSpec q₂) (dev : Nat → Dev) {l : DevList} {ds : List Nat}
    (hl : Linked l.next l.first ds)
    (hd : (ds.map fun x => ((dev x).domain, (dev x).bus, (dev x).dev, (dev x).func)).Nodup)
    {fuel : Nat} (hf : ds.length ≤ fuel) :
    sortThem q₁ dev fuel l = sortThem q₂ dev fuel l := by
  have hc := compareThem_consistent.comap dev
  have hn := linked_nodup hl
  -- each `qsort` leaves the list in increasing order
  have hlt : ∀ q, QsortSpec q → (q (fun x y => compareThem (dev x) (dev y)) ds).Pairwise
      fun x y => compareThem (dev x) (dev y) = .lt := fun q hq =>
    pairwise_lt_of_distinct dev (hq.perm _ ds hc) ((hq.perm _ ds hc).nodup_iff.2 hn) hd (hq.sorted _ ds hc)
  have : IsAntisymm Nat fun x y => compareThem (dev x) (dev y) = .lt :=
    ⟨fun x y hxy hyx => by rw [← hc.swap, hxy] at hyx; cases hyx⟩
  rw [sortThem, sortThem, walk_of_linked hl hf, Option.map_some', Option.map_some',
    List.eq_of_perm_of_sorted ((h₁.perm _ ds hc).trans (h₂.perm _ ds hc).symm) (hlt q₁ h₁) (hlt q₂ h₂)]

/-- A `qsort` that sorts the reversed array by merge sort. -/
def reverseQsort (cmp : Nat → Nat → Ordering) (l : List Nat) : List Nat := mergeQsort cmp l.reverse

theorem reverseQsort_spec : QsortSpec reverseQsort where
  perm cmp l h := (mergeQsort_spec.perm cmp l.reverse h).trans (List.reverse_perm l)
  sorted cmp l h := mergeQsort_spec.sorted cmp l.reverse h

theorem sortThem_independent_of_qsort_pair :
    QsortSpec mergeQsort ∧ QsortSpec reverseQsort ∧ Linked pairList.next pairList.first [0, 1] ∧
      ([0, 1].map fun x => ((pairDev x).domain, (pairDev x).bus, (pairDev x).dev, (pairDev x).func)).Nodup ∧
      [0, 1].length ≤ 2 ∧ sortThem mergeQsort pairDev 2 pairList = sortThem reverseQsort pairDev 2 pairList :=
  ⟨mergeQsort_spec, reverseQsort_spec, ⟨rfl, rfl, rfl⟩, by decide, le_rfl,
    @sortThem_independent_of_qsort mergeQsort reverseQsort mergeQsort_spec reverseQsort_spec pairDev pairList
      [0, 1] ⟨rfl, rfl, rfl⟩ (by decide) 2 le_rfl⟩

end Tree
end AdnacomEe
