import Mathlib.Data.Nat.Defs
import Mathlib.Algebra.Group.Nat.Basic

/-!
# The configuration-space cache of `struct device`

`h1a_ee` keeps a copy of each device's configuration space in `d->config`, with a byte
`d->present[i]` saying whether byte `i` has been read. `scan_device` reads the 256-byte header
into a fresh 256-byte buffer and marks it all present. `config_fetch(d, pos, len)` makes
`[pos, pos + len)` present: it trims the present bytes off both ends of the request, doubles
both buffers until the request fits (clearing the new presence bytes), reads the rest with
`pci_read_block` and, if the read succeeds, marks it present. `get_conf_byte`, `get_conf_word`
and `get_conf_long` read the cache, and `die` on a byte that is not present.

The device is a fixed `oracle` of bytes. `pci_read_block` either reads the oracle's bytes and
returns nonzero, or fails, returns `0` and leaves arbitrary bytes (`junk`) in the range it was
asked to fill. Positions are `Nat`: the C computes them in `unsigned int`, which agrees with
`Nat` as long as `pos + len < 2 ^ 32`, as it is for configuration space (`pos + len ≤ 4096`).

`config_fetch` trims only the two ends of a request, so a later request can span bytes that are
already present, which it reads again. A successful read puts the oracle's bytes back; a failed
one may overwrite them while they stay marked present
(`configFetch_failed_read_overwrites_present`). `Coherent` is the cache's invariant (buffers
of a power-of-two size of at least 256, nothing present past them, every present byte the
oracle's), and it holds along every run in which no failed read changes a present byte
(`configFetch_coherent`), with each call's postcondition (`FetchPost`).

* `configFetch_step`: one call keeps `Coherent` and meets `FetchPost`.
* `fetchRun_coherent`: a whole run keeps `Coherent`.
* `getConf_of_coherent`: on a coherent cache, `get_conf_*` either dies or returns the oracle's
  bytes; after a call that returns nonzero, inside its request, it returns them
  (`getConf_after_fetchRun`).

Which bytes a call reads depends only on the presence bytes. `Shaped`, the part of `Coherent`
about the buffers' size and what is present past them, holds on every device `config_fetch` sees
(`Reachable`), whatever the reads returned, and there:

* `configFetch_reads_trimmed`: a call makes at most one read, of the request with its present
  ends trimmed off (`readRequest`, `TrimmedRead`), and none exactly when the whole request is
  present; the read can still span present bytes (`configFetch_rereads_present_middle`).

The buffers grow only as far as the requests need (`fetchRun_bufsize_tight`): after any run of
requests ending at most at `4096` they cover every non-empty request, they are still `256` or less
than twice the end of one of them, and they never exceed `4096`.

Positions, lengths and sizes are `Nat`. In C, `end` is an `unsigned int` and `config_bufsize` is
doubled in unsigned arithmetic, so a request ending past `2^31` would make the doubling wrap; every
result here is for requests ending at most at `4096`, where the two agree.
-/

namespace AdnacomEe
namespace Config

/-- The fields of `struct device` that the configuration cache uses: the cached bytes, their
presence bytes, and the size of both buffers. Past `configBufsize` the two functions hold what
lies beyond the buffers. -/
structure Device where
  config : Nat → UInt8
  present : Nat → Bool
  configBufsize : Nat

/-- The outcome of a `pci_read_block` call: it reads the device and returns nonzero, or it fails
and returns `0`, leaving `junk` in the bytes it was asked to fill. -/
inductive ReadBlock
  | ok
  | fail (junk : Nat → UInt8)

/-- The buffer `buf` with `[pos, pos + len)` taken from `src`: what `pci_read_block` and
`memset` do to a range. -/
def fill {α : Type} (buf : Nat → α) (pos len : Nat) (src : Nat → α) : Nat → α :=
  fun i => if pos ≤ i ∧ i < pos + len then src i else buf i

theorem fill_apply {α : Type} (buf : Nat → α) (pos len : Nat) (src : Nat → α) (i : Nat) :
    fill buf pos len src i = if pos ≤ i ∧ i < pos + len then src i else buf i := rfl

/-! ### `config_fetch` -/

/-- The first loop of `config_fetch`:
`while (pos < d->config_bufsize && len && d->present[pos]) pos++, len--;`. -/
def trimFront (d : Device) : Nat → Nat → Nat × Nat
  | pos, 0 => (pos, 0)
  | pos, len + 1 =>
    if pos < d.configBufsize ∧ d.present pos = true then trimFront d (pos + 1) len
    else (pos, len + 1)

/-- The second loop of `config_fetch`:
`while (pos+len <= d->config_bufsize && len && d->present[pos+len-1]) len--;`. -/
def trimBack (d : Device) (pos : Nat) : Nat → Nat
  | 0 => 0
  | len + 1 =>
    if pos + (len + 1) ≤ d.configBufsize ∧ d.present (pos + len) = true then trimBack d pos len
    else len + 1

/-- `while (end > d->config_bufsize) d->config_bufsize *= 2;`, for at most `fuel` doublings. -/
def doubleUntil (e : Nat) : Nat → Nat → Nat
  | 0, size => size
  | fuel + 1, size => if e > size then doubleUntil e fuel (size * 2) else size

/-- The growth branch of `config_fetch` for a request ending at `e`: the size doubled until the
request fits (with `e` doublings of fuel, more than a size of at least `1` needs), both buffers
`xrealloc`ed, and `memset(d->present + orig_size, 0, d->config_bufsize - orig_size)`. The new
bytes of `config` are whatever the heap held, which the model leaves as they were. -/
def grow (d : Device) (e : Nat) : Device :=
  let size := doubleUntil e e d.configBufsize
  { d with
    configBufsize := size
    present := fill d.present d.configBufsize (size - d.configBufsize) fun _ => false }

/-- `result = pci_read_block(d->dev, pos, d->config + pos, len); if (result) memset(d->present +
pos, 1, len);`. -/
def readBlockInto (oracle : Nat → UInt8) (d : Device) (pos len : Nat) : ReadBlock → Nat × Device
  | .ok =>
    (1, { d with config := fill d.config pos len oracle, present := fill d.present pos len fun _ => true })
  | .fail junk => (0, { d with config := fill d.config pos len junk })

/-- **`config_fetch(d, pos, len)`** against the device `oracle`, where `rb` is the outcome of the
`pci_read_block` call, if one is made. Returns the result and the device after the call. -/
def configFetch (oracle : Nat → UInt8) (rb : ReadBlock) (d : Device) (pos len : Nat) :
    Nat × Device :=
  let e := pos + len
  let t := trimFront d pos len
  let l := trimBack d t.1 t.2
  if l = 0 then (1, d)
  else readBlockInto oracle (if e > d.configBufsize then grow d e else d) t.1 l rb

/-- The range `config_fetch(d, pos, len)` asks `pci_read_block` to fill: the request with its
present ends trimmed off; `none` when nothing is left and no read is made. -/
def readRequest (d : Device) (pos len : Nat) : Option (Nat × Nat) :=
  if trimBack d (trimFront d pos len).1 (trimFront d pos len).2 = 0 then none
  else some ((trimFront d pos len).1, trimBack d (trimFront d pos len).1 (trimFront d pos len).2)

/-- **`scan_device`** for the configuration cache: `filterMatch` and `adnacom` are the results of
`pci_filter_match` and `pcidev_is_adnacom`, `rb` the outcome of the header read, `heap` the
content of the fresh `xmalloc(256)`. `none` is `return NULL`. -/
def scanDevice (oracle : Nat → UInt8) (filterMatch needTopology adnacom : Bool) (rb : ReadBlock)
    (heap : Nat → UInt8) : Option Device :=
  if !filterMatch && !needTopology then none
  else if !adnacom then none
  else match rb with
    | .ok => some ⟨fill heap 0 256 oracle, fun i => decide (i < 256), 256⟩
    | .fail _ => none

/-- A `config_fetch(d, pos, len)` call with the outcome of its read. -/
structure Fetch where
  pos : Nat
  len : Nat
  read : ReadBlock

/-- A run of `config_fetch` calls on one device. -/
def fetchRun (oracle : Nat → UInt8) : Device → List Fetch → Device
  | d, [] => d
  | d, c :: calls => fetchRun oracle (configFetch oracle c.read d c.pos c.len).2 calls

/-- The devices `config_fetch` sees: one that `scan_device` admits, after any calls, whatever
their reads returned. -/
inductive Reachable (oracle : Nat → UInt8) : Device → Prop
  | scan {filterMatch needTopology adnacom : Bool} {rb : ReadBlock} {heap : Nat → UInt8} {d : Device} :
      scanDevice oracle filterMatch needTopology adnacom rb heap = some d → Reachable oracle d
  | fetch {d : Device} (rb : ReadBlock) (pos len : Nat) :
      Reachable oracle d → Reachable oracle (configFetch oracle rb d pos len).2

/-! ### What the cache guarantees -/

/-- **The cache invariant.** Both buffers have a power-of-two size of at least 256, nothing is
present past them, and every present byte is the oracle's. -/
structure Coherent (oracle : Nat → UInt8) (d : Device) : Prop where
  pow_two : ∃ k, d.configBufsize = 256 * 2 ^ k
  absent_beyond : ∀ i, d.configBufsize ≤ i → d.present i = false
  cached : ∀ i, d.present i = true → d.config i = oracle i

/-- The part of `Coherent` that holds whatever the reads return: the buffers' size, and nothing
present past them. -/
structure Shaped (d : Device) : Prop where
  pow_two : ∃ k, d.configBufsize = 256 * 2 ^ k
  absent_beyond : ∀ i, d.configBufsize ≤ i → d.present i = false

/-- What a failed read must not do for the cache to stay coherent: change a present byte. -/
def ReadBlock.KeepsPresent (d : Device) : ReadBlock → Prop
  | .ok => True
  | .fail junk => ∀ i, d.present i = true → junk i = d.config i

/-- The postcondition of `config_fetch(d, pos, len)` returning `r` with the device `d'`. -/
structure FetchPost (d : Device) (pos len r : Nat) (d' : Device) : Prop where
  covered : r ≠ 0 → ∀ i, pos ≤ i → i < pos + len → i < d'.configBufsize ∧ d'.present i = true
  kept : r ≠ 0 → ∀ i, d.present i = true → d'.present i = true ∧ d'.config i = d.config i
  no_new : r = 0 → ∀ i, d'.present i = true → d.present i = true

/-- The range `[a, a + l)` a call reads for the request `[pos, pos + len)`: not empty, inside the
request, starting and ending at bytes not present, and every byte of the request outside it
present. -/
structure TrimmedRead (d : Device) (pos len a l : Nat) : Prop where
  inside : pos ≤ a ∧ a + l ≤ pos + len
  nonempty : 0 < l
  first_absent : d.present a = false
  last_absent : d.present (a + l - 1) = false
  rest_present : ∀ i, pos ≤ i → i < pos + len → (i < a ∨ a + l ≤ i) → d.present i = true

/-- A run in which no failed read changes a byte that is present when it is issued. -/
def RunOk (oracle : Nat → UInt8) : Device → List Fetch → Prop
  | _, [] => True
  | d, c :: calls => c.read.KeepsPresent d ∧ RunOk oracle (configFetch oracle c.read d c.pos c.len).2 calls

/-! ### The two trim loops -/

theorem trimFront_spec (d : Device) : ∀ pos len,
    pos ≤ (trimFront d pos len).1 ∧ (trimFront d pos len).1 + (trimFront d pos len).2 = pos + len ∧
      ∀ i, pos ≤ i → i < (trimFront d pos len).1 → i < d.configBufsize ∧ d.present i = true
  | pos, 0 => ⟨le_rfl, rfl, fun i h h' => absurd h' (by simp [trimFront]; omega)⟩
  | pos, len + 1 => by
    rw [trimFront]
    split_ifs with h
    · obtain ⟨h1, h2, h3⟩ := trimFront_spec d (pos + 1) len
      refine ⟨by omega, by omega, fun i hi hi' => ?_⟩
      rcases Nat.eq_or_lt_of_le hi with rfl | hi
      · exact h
      · exact h3 i hi hi'
    · exact ⟨le_rfl, rfl, fun i h h' => absurd h' (by omega)⟩

theorem trimBack_spec (d : Device) (pos : Nat) : ∀ len,
    trimBack d pos len ≤ len ∧
      ∀ i, pos + trimBack d pos len ≤ i → i < pos + len → i < d.configBufsize ∧ d.present i = true
  | 0 => ⟨le_rfl, fun i h h' => absurd h' (by simp [trimBack] at h; omega)⟩
  | len + 1 => by
    rw [trimBack]
    split_ifs with h
    · obtain ⟨h1, h2⟩ := trimBack_spec d pos len
      refine ⟨by omega, fun i hi hi' => ?_⟩
      rcases Nat.lt_or_ge i (pos + len) with hl | hl
      · exact h2 i hi hl
      · rw [show i = pos + len by omega]
        exact ⟨by omega, h.2⟩
    · exact ⟨le_rfl, fun i h h' => absurd h' (by omega)⟩

/-- **The trimmed request.** The range `config_fetch` reads lies inside the request, and every
byte of the request outside it is present. -/
theorem trim_cover (d : Device) (pos len : Nat) :
    pos ≤ (trimFront d pos len).1 ∧
      (trimFront d pos len).1 + trimBack d (trimFront d pos len).1 (trimFront d pos len).2 ≤ pos + len ∧
      ∀ i, pos ≤ i → i < pos + len →
        ((trimFront d pos len).1 ≤ i ∧
          i < (trimFront d pos len).1 + trimBack d (trimFront d pos len).1 (trimFront d pos len).2) ∨
        (i < d.configBufsize ∧ d.present i = true) := by
  obtain ⟨h1, h2, h3⟩ := trimFront_spec d pos len
  obtain ⟨h4, h5⟩ := trimBack_spec d (trimFront d pos len).1 (trimFront d pos len).2
  refine ⟨h1, by omega, fun i hi hi' => ?_⟩
  by_cases hf : i < (trimFront d pos len).1
  · exact .inr (h3 i hi hf)
  · by_cases hb : i < (trimFront d pos len).1 + trimBack d (trimFront d pos len).1 (trimFront d pos len).2
    · exact .inl ⟨by omega, hb⟩
    · exact .inr (h5 i (by omega) (by omega))

/-- Where the first loop stops: with nothing left, or at a byte past the buffers or not present. -/
theorem trimFront_stop (d : Device) : ∀ pos len, (trimFront d pos len).2 = 0 ∨
    ¬((trimFront d pos len).1 < d.configBufsize ∧ d.present (trimFront d pos len).1 = true)
  | _, 0 => .inl rfl
  | pos, len + 1 => by
    rw [trimFront]
    split_ifs with h
    · exact trimFront_stop d (pos + 1) len
    · exact .inr h

/-- Where the second loop stops: with nothing left, or at a last byte past the buffers or not
present. -/
theorem trimBack_stop (d : Device) (pos : Nat) : ∀ len, trimBack d pos len = 0 ∨
    ¬(pos + trimBack d pos len ≤ d.configBufsize ∧ d.present (pos + trimBack d pos len - 1) = true)
  | 0 => .inl rfl
  | len + 1 => by
    rw [trimBack]
    split_ifs with h
    · exact trimBack_stop d pos len
    · exact .inr h

/-! ### Growth -/

theorem doubleUntil_spec (e : Nat) : ∀ fuel size,
    (∃ k, doubleUntil e fuel size = size * 2 ^ k) ∧
      (e ≤ size * 2 ^ fuel → e ≤ doubleUntil e fuel size)
  | 0, size => ⟨⟨0, by simp [doubleUntil]⟩, fun h => by simpa [doubleUntil] using h⟩
  | fuel + 1, size => by
    rw [doubleUntil]
    split_ifs with h
    · obtain ⟨⟨k, hk⟩, hb⟩ := doubleUntil_spec e fuel (size * 2)
      refine ⟨⟨k + 1, by rw [hk, Nat.pow_succ, Nat.mul_comm (2 ^ k), Nat.mul_assoc]⟩, fun h' => hb ?_⟩
      rwa [Nat.pow_succ, Nat.mul_comm (2 ^ fuel), ← Nat.mul_assoc] at h'
    · exact ⟨⟨0, by simp⟩, fun _ => by omega⟩

variable {oracle : Nat → UInt8} {d : Device}

theorem Coherent.shaped (h : Coherent oracle d) : Shaped d := ⟨h.pow_two, h.absent_beyond⟩

/-- Growing a device only moves its size: the cleared presence bytes were clear. -/
theorem Shaped.grow_present (h : Shaped d) (e : Nat) : (grow d e).present = d.present := by
  funext i
  simp only [grow, fill_apply]
  split_ifs with hi
  · exact (h.absent_beyond i hi.1).symm
  · rfl

/-- The device `config_fetch` reads into: grown when the request ends past the buffers. It keeps
the shape and the bytes, and the request fits. -/
theorem Shaped.growIf (h : Shaped d) (e : Nat) :
    let d₁ := if e > d.configBufsize then grow d e else d
    Shaped d₁ ∧ d₁.present = d.present ∧ d₁.config = d.config ∧
      d.configBufsize ≤ d₁.configBufsize ∧ e ≤ d₁.configBufsize := by
  split_ifs with he
  · obtain ⟨k, hk⟩ := h.pow_two
    obtain ⟨⟨j, hj⟩, hb⟩ := doubleUntil_spec e e d.configBufsize
    have hsize : (grow d e).configBufsize = d.configBufsize * 2 ^ j := hj
    have hpos : 1 ≤ d.configBufsize := by rw [hk]; exact Nat.mul_pos (by omega) (Nat.two_pow_pos k)
    have hfit : e ≤ d.configBufsize * 2 ^ e :=
      Nat.le_trans (Nat.le_of_lt (Nat.lt_pow_self (by omega : 1 < 2) e)) (Nat.le_mul_of_pos_left _ hpos)
    have hgrows : d.configBufsize ≤ (grow d e).configBufsize := by
      rw [hsize]; exact Nat.le_mul_of_pos_right _ (Nat.two_pow_pos j)
    refine ⟨⟨⟨k + j, by rw [hsize, hk, Nat.pow_add, Nat.mul_assoc]⟩, fun i hi => ?_⟩,
      h.grow_present e, rfl, hgrows, hb hfit⟩
    rw [h.grow_present e]
    exact h.absent_beyond i (le_trans hgrows hi)
  · exact ⟨h, rfl, rfl, le_rfl, by omega⟩

/-! ### One call, and a run -/

/-- **One call keeps the shape**, whatever its read returns. A nonzero result leaves the whole
request inside the buffers and present; a zero one makes nothing new present. -/
theorem configFetch_shaped (h : Shaped d) (rb : ReadBlock) (pos len : Nat) :
    Shaped (configFetch oracle rb d pos len).2 ∧
      ((configFetch oracle rb d pos len).1 ≠ 0 → ∀ i, pos ≤ i → i < pos + len →
        i < (configFetch oracle rb d pos len).2.configBufsize ∧
          (configFetch oracle rb d pos len).2.present i = true) ∧
      ((configFetch oracle rb d pos len).1 = 0 →
        ∀ i, (configFetch oracle rb d pos len).2.present i = true → d.present i = true) := by
  obtain ⟨-, hle, hcov⟩ := trim_cover d pos len
  simp only [configFetch]
  generalize trimFront d pos len = t at hle hcov
  generalize trimBack d t.1 t.2 = l at hle hcov
  by_cases hl : l = 0
  · rw [if_pos hl]
    refine ⟨h, fun _ i hi hi' => (hcov i hi hi').resolve_left (by omega), fun h1 => absurd h1 Nat.one_ne_zero⟩
  rw [if_neg hl]
  obtain ⟨h₁, hp, -, hsize, hfit⟩ := h.growIf (pos + len)
  generalize (if pos + len > d.configBufsize then grow d (pos + len) else d) = d₁ at h₁ hp hsize hfit ⊢
  cases rb with
  | ok =>
    refine ⟨⟨h₁.pow_two, fun i hi => ?_⟩, fun _ i hi hi' => ?_, fun h1 => absurd h1 Nat.one_ne_zero⟩
    · simp only [readBlockInto, fill_apply] at hi ⊢
      rw [if_neg (by omega)]
      exact h₁.absent_beyond i hi
    · simp only [readBlockInto, fill_apply]
      refine ⟨by omega, ?_⟩
      split_ifs with hr
      · rfl
      · rw [hp]; exact ((hcov i hi hi').resolve_left hr).2
  | fail junk => exact ⟨⟨h₁.pow_two, h₁.absent_beyond⟩, fun h0 => absurd rfl h0, fun _ i hi => hp ▸ hi⟩

/-- **One call keeps the bytes**: from a coherent device, a call whose failed read changes no
present byte leaves every present byte the oracle's, and a nonzero result keeps the bytes present
before it. -/
theorem configFetch_values (h : Coherent oracle d) {rb : ReadBlock} (hrb : rb.KeepsPresent d)
    (pos len : Nat) :
    (∀ i, (configFetch oracle rb d pos len).2.present i = true →
      (configFetch oracle rb d pos len).2.config i = oracle i) ∧
    ((configFetch oracle rb d pos len).1 ≠ 0 → ∀ i, d.present i = true →
      (configFetch oracle rb d pos len).2.present i = true ∧
        (configFetch oracle rb d pos len).2.config i = d.config i) := by
  simp only [configFetch]
  by_cases hl : trimBack d (trimFront d pos len).1 (trimFront d pos len).2 = 0
  · rw [if_pos hl]
    exact ⟨h.cached, fun _ i hi => ⟨hi, rfl⟩⟩
  rw [if_neg hl]
  obtain ⟨-, hp, hc, -, -⟩ := h.shaped.growIf (pos + len)
  generalize (if pos + len > d.configBufsize then grow d (pos + len) else d) = d₁ at hp hc ⊢
  cases rb with
  | ok =>
    refine ⟨fun i hi => ?_, fun _ i hi => ?_⟩
    · simp only [readBlockInto, fill_apply] at hi ⊢
      split_ifs at hi ⊢
      · rfl
      · rw [hc]; exact h.cached i (hp ▸ hi)
    · simp only [readBlockInto, fill_apply, hp, hc]
      split_ifs
      · exact ⟨rfl, (h.cached i hi).symm⟩
      · exact ⟨hi, rfl⟩
  | fail junk =>
    refine ⟨fun i hi => ?_, fun h0 => absurd rfl h0⟩
    simp only [readBlockInto, fill_apply]
    split_ifs
    · rw [hrb i (hp ▸ hi)]; exact h.cached i (hp ▸ hi)
    · rw [hc]; exact h.cached i (hp ▸ hi)

/-- **One call of `config_fetch`.** From a coherent device, a call whose failed read changes no
present byte leaves the device coherent and meets `FetchPost`. -/
theorem configFetch_step (h : Coherent oracle d) {rb : ReadBlock} (hrb : rb.KeepsPresent d)
    (pos len : Nat) :
    Coherent oracle (configFetch oracle rb d pos len).2 ∧
      FetchPost d pos len (configFetch oracle rb d pos len).1 (configFetch oracle rb d pos len).2 := by
  obtain ⟨hs, hcov, hnew⟩ := configFetch_shaped h.shaped rb pos len
  obtain ⟨hcached, hkept⟩ := configFetch_values h hrb pos len
  exact ⟨⟨hs.pow_two, hs.absent_beyond, hcached⟩, ⟨hcov, hkept, hnew⟩⟩

/-- **A run of `config_fetch` calls** keeps the cache coherent, as long as no failed read
changes a present byte. -/
theorem fetchRun_coherent : ∀ {d : Device} (calls : List Fetch), Coherent oracle d →
    RunOk oracle d calls → Coherent oracle (fetchRun oracle d calls)
  | _, [], h, _ => h
  | _, c :: calls, h, ⟨hrb, hrest⟩ =>
    fetchRun_coherent calls (configFetch_step h hrb c.pos c.len).1 hrest

theorem runOk_append : ∀ {d : Device} (calls more : List Fetch),
    RunOk oracle d (calls ++ more) → RunOk oracle d calls ∧ RunOk oracle (fetchRun oracle d calls) more
  | _, [], _, h => ⟨trivial, h⟩
  | _, _ :: calls, more, ⟨hrb, hrest⟩ =>
    ⟨⟨hrb, (runOk_append calls more hrest).1⟩, (runOk_append calls more hrest).2⟩

/-- A device `scan_device` admits starts coherent: its 256 bytes are read and present. -/
theorem scanDevice_coherent {filterMatch needTopology adnacom : Bool} {rb : ReadBlock}
    {heap : Nat → UInt8} (hd : scanDevice oracle filterMatch needTopology adnacom rb heap = some d) :
    Coherent oracle d := by
  unfold scanDevice at hd
  split_ifs at hd
  cases rb with
  | fail _ => cases hd
  | ok =>
    cases hd
    refine ⟨⟨0, rfl⟩, fun i hi => by simpa using hi, fun i hi => ?_⟩
    simp only [decide_eq_true_eq] at hi
    simp [fill_apply, hi]

/-- **Cache coherence along a run.** For a device `scan_device` admits and every run of
`config_fetch` calls in which no failed read changes a present byte, at every call the device is
coherent before and after it, and the call meets `FetchPost`: after a nonzero result the whole
request is inside the buffers and present, with the bytes present before it unchanged; after a
`0` nothing new is present. -/
theorem configFetch_coherent {filterMatch needTopology adnacom : Bool} {rb₀ : ReadBlock}
    {heap : Nat → UInt8} {d₀ : Device}
    (hd : scanDevice oracle filterMatch needTopology adnacom rb₀ heap = some d₀)
    (calls : List Fetch) (c : Fetch) (hrun : RunOk oracle d₀ (calls ++ [c])) :
    Coherent oracle (fetchRun oracle d₀ calls) ∧
      Coherent oracle (configFetch oracle c.read (fetchRun oracle d₀ calls) c.pos c.len).2 ∧
      FetchPost (fetchRun oracle d₀ calls) c.pos c.len
        (configFetch oracle c.read (fetchRun oracle d₀ calls) c.pos c.len).1
        (configFetch oracle c.read (fetchRun oracle d₀ calls) c.pos c.len).2 := by
  obtain ⟨hcalls, hc, -⟩ := runOk_append calls [c] hrun
  have h := fetchRun_coherent calls (scanDevice_coherent hd) hcalls
  exact ⟨h, configFetch_step h hc c.pos c.len⟩

theorem configFetch_coherent_after_scan :
    ∃ d₀, scanDevice (fun _ => 0) true false true .ok (fun _ => 0) = some d₀ ∧
      RunOk (fun _ => 0) d₀ ([] ++ [⟨300, 4, .ok⟩]) ∧
      Coherent (fun _ => 0) (fetchRun (fun _ => 0) d₀ []) ∧
      Coherent (fun _ => 0) (configFetch (fun _ => 0) .ok (fetchRun (fun _ => 0) d₀ []) 300 4).2 ∧
      FetchPost (fetchRun (fun _ => 0) d₀ []) 300 4
        (configFetch (fun _ => 0) .ok (fetchRun (fun _ => 0) d₀ []) 300 4).1
        (configFetch (fun _ => 0) .ok (fetchRun (fun _ => 0) d₀ []) 300 4).2 := by
  have hd : scanDevice (fun _ => 0) true false true .ok (fun _ => 0) = some _ := rfl
  exact ⟨_, hd, ⟨trivial, trivial⟩, configFetch_coherent hd [] ⟨300, 4, .ok⟩ ⟨trivial, trivial⟩⟩

/-- A request `[257, 258)` read, then `[256, 259)` failing with `0xff` in every byte: the second
request spans the present byte `257`, which `config_fetch` reads again, so byte `257` stays
present and holds `0xff` where the device has `0`. -/
theorem configFetch_failed_read_overwrites_present :
    ∃ d₀, scanDevice (fun _ => 0) true false true .ok (fun _ => 0) = some d₀ ∧
      (fetchRun (fun _ => 0) d₀ [⟨257, 1, .ok⟩, ⟨256, 3, .fail fun _ => 0xff⟩]).present 257 = true ∧
      (fetchRun (fun _ => 0) d₀ [⟨257, 1, .ok⟩, ⟨256, 3, .fail fun _ => 0xff⟩]).config 257 = 0xff :=
  ⟨_, rfl, by decide, by decide⟩

/-! ### What a call reads -/

/-- `config_fetch` makes at most one read: of `readRequest`, into the buffers grown to fit. -/
theorem configFetch_eq (oracle : Nat → UInt8) (rb : ReadBlock) (d : Device) (pos len : Nat) :
    configFetch oracle rb d pos len = match readRequest d pos len with
      | none => (1, d)
      | some (a, l) =>
        readBlockInto oracle (if pos + len > d.configBufsize then grow d (pos + len) else d) a l rb := by
  by_cases hl : trimBack d (trimFront d pos len).1 (trimFront d pos len).2 = 0 <;>
    simp only [configFetch, readRequest, hl, if_true, if_false]

theorem Reachable.shaped (h : Reachable oracle d) : Shaped d := by
  induction h with
  | scan hd => exact (scanDevice_coherent hd).shaped
  | fetch rb pos len _ ih => exact (configFetch_shaped ih rb pos len).1

theorem Reachable.fetchRun (h : Reachable oracle d) (calls : List Fetch) :
    Reachable oracle (fetchRun oracle d calls) := by
  induction calls generalizing d with
  | nil => exact h
  | cons c calls ih => exact ih (.fetch c.read c.pos c.len h)

/-- A byte where a trim loop stops is absent: not present, or past the buffers, where nothing is. -/
theorem Shaped.absent_of_stop (h : Shaped d) {i : Nat}
    (hi : ¬(i < d.configBufsize ∧ d.present i = true)) : d.present i = false := by
  by_cases hb : i < d.configBufsize
  · simpa [hb] using hi
  · exact h.absent_beyond i (by omega)

theorem Shaped.trimmedRead (h : Shaped d) {pos len a l : Nat} (hr : readRequest d pos len = some (a, l)) :
    TrimmedRead d pos len a l := by
  unfold readRequest at hr
  split_ifs at hr with hl
  cases hr
  obtain ⟨h1, h2, h3⟩ := trim_cover d pos len
  have hback := (trimBack_stop d _ _).resolve_left hl
  refine ⟨⟨h1, h2⟩, Nat.pos_of_ne_zero hl, h.absent_of_stop ((trimFront_stop d pos len).resolve_left
    fun h0 => hl (by rw [h0]; rfl)), h.absent_of_stop fun hb => hback ⟨by omega, hb.2⟩,
    fun i hi hi' hout => ((h3 i hi hi').resolve_left (by omega)).2⟩

theorem Shaped.readRequest_eq_none_iff (h : Shaped d) (pos len : Nat) :
    readRequest d pos len = none ↔ ∀ i, pos ≤ i → i < pos + len → d.present i = true := by
  refine ⟨fun hr i hi hi' => ?_, fun hall => ?_⟩
  · unfold readRequest at hr
    split_ifs at hr with hl
    exact (((trim_cover d pos len).2.2 i hi hi').resolve_left (by omega)).2
  · rcases hr : readRequest d pos len with _ | ⟨a, l⟩
    · rfl
    · obtain ⟨⟨h1, h2⟩, hl, hfirst, -, -⟩ := h.trimmedRead hr
      rw [hall a h1 (by omega)] at hfirst
      cases hfirst

/-- **What `config_fetch` reads.** On every device it sees, a call makes at most one
`pci_read_block`, of the range `readRequest` gives, into the buffers grown to fit the request. That
range is the request trimmed (`TrimmedRead`): inside it, starting and ending at bytes not present,
with every byte of the request outside it present. There is no read, and the call returns `1` and
changes nothing, exactly when the whole request is present; so a request repeated after it
returned nonzero reads nothing. -/
theorem configFetch_reads_trimmed (hr : Reachable oracle d) (rb : ReadBlock) (pos len : Nat) :
    configFetch oracle rb d pos len = (match readRequest d pos len with
      | none => (1, d)
      | some (a, l) =>
        readBlockInto oracle (if pos + len > d.configBufsize then grow d (pos + len) else d) a l rb) ∧
    (∀ a l, readRequest d pos len = some (a, l) → TrimmedRead d pos len a l) ∧
    (readRequest d pos len = none ↔ ∀ i, pos ≤ i → i < pos + len → d.present i = true) ∧
    ((configFetch oracle rb d pos len).1 ≠ 0 →
      readRequest (configFetch oracle rb d pos len).2 pos len = none) := by
  have hs := hr.shaped
  obtain ⟨hs', hcov, -⟩ := configFetch_shaped hs rb pos len
  exact ⟨configFetch_eq oracle rb d pos len, fun _ _ => hs.trimmedRead,
    hs.readRequest_eq_none_iff pos len,
    fun h0 => (hs'.readRequest_eq_none_iff pos len).2 fun i hi hi' => (hcov h0 i hi hi').2⟩

theorem configFetch_reads_trimmed_after_fetch :
    ∃ d, Reachable (fun _ => 0) d ∧ readRequest d 256 3 = some (256, 3) ∧ TrimmedRead d 256 3 256 3 :=
  have hr : Reachable (fun _ => 0) _ :=
    (Reachable.scan (rfl : scanDevice (fun _ => 0) true false true .ok (fun _ => 0) = some _)).fetchRun
      [⟨257, 1, .ok⟩]
  ⟨_, hr, by decide, (configFetch_reads_trimmed hr .ok 256 3).2.1 256 3 (by decide)⟩

/-- After `[257, 258)` is read, the request `[256, 259)` reads all three bytes, the present byte
`257` among them. -/
theorem configFetch_rereads_present_middle :
    ∃ d₀, scanDevice (fun _ => 0) true false true .ok (fun _ => 0) = some d₀ ∧
      (fetchRun (fun _ => 0) d₀ [⟨257, 1, .ok⟩]).present 257 = true ∧
      readRequest (fetchRun (fun _ => 0) d₀ [⟨257, 1, .ok⟩]) 256 3 = some (256, 3) :=
  ⟨_, rfl, by decide, by decide⟩

/-! ### How far the buffers grow -/

theorem doubleUntil_of_le {e size : Nat} (h : e ≤ size) : ∀ fuel, doubleUntil e fuel size = size
  | 0 => rfl
  | _ + 1 => by rw [doubleUntil, if_neg (by omega)]

/-- Doubling stops at the first size that fits, which is less than twice the end. -/
theorem doubleUntil_lt {e : Nat} : ∀ fuel size, size < e → doubleUntil e fuel size < 2 * e
  | 0, size, h => by rw [doubleUntil]; omega
  | fuel + 1, size, h => by
    rw [doubleUntil, if_pos h]
    by_cases h2 : e ≤ size * 2
    · rw [doubleUntil_of_le h2]
      omega
    · exact doubleUntil_lt fuel _ (by omega)

theorem readBlockInto_bufsize (d : Device) (pos len : Nat) (rb : ReadBlock) :
    (readBlockInto oracle d pos len rb).2.configBufsize = d.configBufsize := by
  cases rb <;> rfl

/-- **One call grows the buffers only as far as its request needs.** They never shrink; after a
non-empty request they cover it; and they are unchanged or less than twice its end. -/
theorem configFetch_bufsize (h : Shaped d) (rb : ReadBlock) (pos len : Nat) :
    d.configBufsize ≤ (configFetch oracle rb d pos len).2.configBufsize ∧
    (len ≠ 0 → pos + len ≤ (configFetch oracle rb d pos len).2.configBufsize) ∧
    ((configFetch oracle rb d pos len).2.configBufsize = d.configBufsize ∨
      len ≠ 0 ∧ (configFetch oracle rb d pos len).2.configBufsize < 2 * (pos + len)) := by
  obtain ⟨h₀, hle, hcov⟩ := trim_cover d pos len
  obtain ⟨-, -, -, hgrow, hfit⟩ := h.growIf (pos + len)
  simp only [configFetch]
  generalize trimFront d pos len = t at h₀ hle hcov
  generalize trimBack d t.1 t.2 = l at hle hcov
  by_cases hl : l = 0
  · -- nothing to read: the request was all present, so inside the buffers
    rw [if_pos hl]
    refine ⟨le_rfl, fun hlen => ?_, .inl rfl⟩
    have := (hcov (pos + len - 1) (by omega) (by omega)).resolve_left (by omega)
    show pos + len ≤ d.configBufsize
    omega
  rw [if_neg hl, readBlockInto_bufsize]
  refine ⟨hgrow, fun _ => hfit, ?_⟩
  split_ifs with he
  · exact .inr ⟨by omega, doubleUntil_lt _ _ he⟩
  · exact .inl rfl

/-- A whole run grows the buffers only as far as its requests need. -/
theorem fetchRun_bufsize : ∀ {d : Device} (calls : List Fetch), Shaped d →
    d.configBufsize ≤ (fetchRun oracle d calls).configBufsize ∧
    (∀ c ∈ calls, c.len ≠ 0 → c.pos + c.len ≤ (fetchRun oracle d calls).configBufsize) ∧
    ((fetchRun oracle d calls).configBufsize = d.configBufsize ∨
      ∃ c ∈ calls, c.len ≠ 0 ∧ (fetchRun oracle d calls).configBufsize < 2 * (c.pos + c.len))
  | _, [], _ => ⟨le_rfl, by simp, .inl rfl⟩
  | d, c :: calls, h => by
    obtain ⟨h₁, h₂, h₃⟩ := @configFetch_bufsize oracle d h c.read c.pos c.len
    obtain ⟨ih₁, ih₂, ih₃⟩ := fetchRun_bufsize calls (configFetch_shaped h c.read c.pos c.len).1
    refine ⟨Nat.le_trans h₁ ih₁, fun c' hc' hlen => ?_, ?_⟩
    · rcases List.mem_cons.mp hc' with rfl | hc'
      exacts [Nat.le_trans (h₂ hlen) ih₁, ih₂ c' hc' hlen]
    · rcases ih₃ with heq | ⟨c', hc', hlen, hlt⟩
      · rcases h₃ with h₃ | ⟨hlen, hlt⟩
        exacts [.inl (heq.trans h₃), .inr ⟨c, List.mem_cons_self _ _, hlen, heq ▸ hlt⟩]
      · exact .inr ⟨c', List.mem_cons_of_mem _ hc', hlen, hlt⟩

/-- A whole run keeps the buffers' shape. -/
theorem fetchRun_shaped : ∀ {d : Device} (calls : List Fetch), Shaped d →
    Shaped (fetchRun oracle d calls)
  | _, [], h => h
  | _, c :: calls, h => fetchRun_shaped calls (configFetch_shaped h c.read c.pos c.len).1

/-- **The buffers grow only as far as the requests need.** On a device `scan_device` admits, after
any run of `config_fetch` calls that end at most at `4096`, as every caller's requests do, whatever
their reads returned: `config_bufsize` covers every non-empty request of the run, it is still `256`
or less than twice the end of one of them, and so it never exceeds `4096`. -/
theorem fetchRun_bufsize_tight {filterMatch needTopology adnacom : Bool} {rb₀ : ReadBlock}
    {heap : Nat → UInt8} {d₀ : Device}
    (hd : scanDevice oracle filterMatch needTopology adnacom rb₀ heap = some d₀) (calls : List Fetch)
    (hb : ∀ c ∈ calls, c.pos + c.len ≤ 4096) :
    (∀ c ∈ calls, c.len ≠ 0 → c.pos + c.len ≤ (fetchRun oracle d₀ calls).configBufsize) ∧
      ((fetchRun oracle d₀ calls).configBufsize = 256 ∨
        ∃ c ∈ calls, c.len ≠ 0 ∧ (fetchRun oracle d₀ calls).configBufsize < 2 * (c.pos + c.len)) ∧
      (fetchRun oracle d₀ calls).configBufsize ≤ 4096 := by
  have h256 : d₀.configBufsize = 256 := by
    unfold scanDevice at hd
    split_ifs at hd
    cases rb₀ <;> cases hd
    rfl
  have hs := (scanDevice_coherent hd).shaped
  obtain ⟨-, hcov, htight⟩ := fetchRun_bufsize calls hs
  rw [h256] at htight
  refine ⟨hcov, htight, ?_⟩
  -- a power of two times 256 below 8192 is at most 4096
  obtain ⟨k, hk⟩ := (@fetchRun_shaped oracle _ calls hs).pow_two
  have hlt : 2 ^ k < 2 ^ 5 := by
    rcases htight with h | ⟨c, hc, _, h⟩
    · omega
    · have := hb c hc
      omega
  have hk5 : k < 5 := (Nat.pow_lt_pow_iff_right (by omega)).mp hlt
  have := Nat.pow_le_pow_right (by omega : 0 < 2) (by omega : k ≤ 4)
  omega

/-- A request of four bytes at `0x100`, then an empty one at `0x900`. -/
def extendedCalls : List Fetch := [⟨0x100, 4, .ok⟩, ⟨0x900, 0, .ok⟩]

theorem fetchRun_bufsize_tight_extended :
    ∃ d₀, scanDevice (fun _ => 0) true false true .ok (fun _ => 0) = some d₀ ∧
      (∀ c ∈ extendedCalls, c.pos + c.len ≤ 4096) ∧
      (∀ c ∈ extendedCalls, c.len ≠ 0 →
        c.pos + c.len ≤ (fetchRun (fun _ => 0) d₀ extendedCalls).configBufsize) ∧
      ((fetchRun (fun _ => 0) d₀ extendedCalls).configBufsize = 256 ∨
        ∃ c ∈ extendedCalls, c.len ≠ 0 ∧
          (fetchRun (fun _ => 0) d₀ extendedCalls).configBufsize < 2 * (c.pos + c.len)) ∧
      (fetchRun (fun _ => 0) d₀ extendedCalls).configBufsize ≤ 4096 := by
  have hd : scanDevice (fun _ => 0) true false true .ok (fun _ => 0) = some _ := rfl
  have hb : ∀ c ∈ extendedCalls, c.pos + c.len ≤ 4096 := by decide
  exact ⟨_, hd, hb, fetchRun_bufsize_tight hd _ hb⟩

/-! ### Reading the cache -/

/-- `check_conf_range(d, pos, len)`: `false` where it would `die`. -/
def checkConfRange (d : Device) (pos : Nat) : Nat → Bool
  | 0 => true
  | len + 1 => d.present pos && checkConfRange d (pos + 1) len

/-- The pattern of `get_conf_byte`, `get_conf_word` and `get_conf_long`: check the `len` bytes at
`pos`, then combine them; `none` is the `die`. -/
def getConf {α : Type} (d : Device) (pos len : Nat) (combine : (Fin len → UInt8) → α) : Option α :=
  if checkConfRange d pos len then some (combine fun k => d.config (pos + k)) else none

/-- `get_conf_byte(d, pos)`. -/
def getConfByte (d : Device) (pos : Nat) : Option UInt8 :=
  getConf d pos 1 fun b => b 0

/-- `get_conf_word(d, pos)`: `d->config[pos] | (d->config[pos+1] << 8)`. -/
def getConfWord (d : Device) (pos : Nat) : Option UInt16 :=
  getConf d pos 2 fun b => (b 0).toUInt16 ||| ((b 1).toUInt16 <<< 8)

/-- `get_conf_long(d, pos)`: the four bytes at `pos`, little-endian. -/
def getConfLong (d : Device) (pos : Nat) : Option UInt32 :=
  getConf d pos 4 fun b =>
    (b 0).toUInt32 ||| ((b 1).toUInt32 <<< 8) ||| ((b 2).toUInt32 <<< 16) ||| ((b 3).toUInt32 <<< 24)

theorem checkConfRange_iff (d : Device) : ∀ pos len,
    checkConfRange d pos len = true ↔ ∀ i, pos ≤ i → i < pos + len → d.present i = true
  | pos, 0 => ⟨fun _ i h h' => absurd h' (by omega), fun _ => rfl⟩
  | pos, len + 1 => by
    rw [checkConfRange, Bool.and_eq_true, checkConfRange_iff d (pos + 1) len]
    refine ⟨fun ⟨h0, h⟩ i hi hi' => ?_, fun h => ⟨h pos le_rfl (by omega),
      fun i hi hi' => h i (by omega) (by omega)⟩⟩
    rcases Nat.eq_or_lt_of_le hi with rfl | hi
    · exact h0
    · exact h i hi (by omega)

/-- **Reading a coherent cache.** `get_conf_*` on a coherent device either dies or returns the
oracle's bytes. -/
theorem getConf_of_coherent {α : Type} (h : Coherent oracle d) (pos len : Nat)
    (combine : (Fin len → UInt8) → α) :
    getConf d pos len combine =
      if checkConfRange d pos len then some (combine fun k => oracle (pos + k)) else none := by
  unfold getConf
  split_ifs with hc
  · have hp := (checkConfRange_iff d pos len).1 hc
    congr
    funext k
    exact h.cached _ (hp _ (by omega) (by omega))
  · rfl

/-- After a call of `config_fetch` with a nonzero result, `get_conf_*` on any part of the request
returns the oracle's bytes. -/
theorem getConf_after_fetch {α : Type} (h : Coherent oracle d) {rb : ReadBlock}
    (hrb : rb.KeepsPresent d) {pos len : Nat} (hr : (configFetch oracle rb d pos len).1 ≠ 0)
    {q k : Nat} (hq : pos ≤ q) (hk : q + k ≤ pos + len) (combine : (Fin k → UInt8) → α) :
    getConf (configFetch oracle rb d pos len).2 q k combine = some (combine fun j => oracle (q + j)) := by
  obtain ⟨h', post⟩ := configFetch_step h hrb pos len
  rw [getConf_of_coherent h', if_pos ((checkConfRange_iff _ q k).2 fun i hi hi' =>
    (post.covered hr i (by omega) (by omega)).2)]

/-- **What the readers of the cache get.** On a device `scan_device` admits, along a run of
`config_fetch` calls in which no failed read changes a present byte: after a call that returns
nonzero, `get_conf_byte`, `get_conf_word` and `get_conf_long` anywhere inside its request return
the device's bytes, and none of them dies. This is the pattern of every caller,
`if (!config_fetch(d, pos, len)) return;` and then `get_conf_*` inside `[pos, pos + len)`. -/
theorem getConf_after_fetchRun {α : Type} {filterMatch needTopology adnacom : Bool}
    {rb₀ : ReadBlock} {heap : Nat → UInt8} {d₀ : Device}
    (hd : scanDevice oracle filterMatch needTopology adnacom rb₀ heap = some d₀)
    (calls : List Fetch) (c : Fetch) (hrun : RunOk oracle d₀ (calls ++ [c]))
    (hr : (configFetch oracle c.read (fetchRun oracle d₀ calls) c.pos c.len).1 ≠ 0)
    {q k : Nat} (hq : c.pos ≤ q) (hk : q + k ≤ c.pos + c.len) (combine : (Fin k → UInt8) → α) :
    getConf (configFetch oracle c.read (fetchRun oracle d₀ calls) c.pos c.len).2 q k combine =
      some (combine fun j => oracle (q + j)) := by
  obtain ⟨hcalls, hc, -⟩ := runOk_append calls [c] hrun
  exact getConf_after_fetch (fetchRun_coherent calls (scanDevice_coherent hd) hcalls) hc hr hq hk combine

theorem getConf_after_fetchRun_extended :
    ∃ d₀, scanDevice (fun _ => 0) true false true .ok (fun _ => 0) = some d₀ ∧
      RunOk (fun _ => 0) d₀ ([] ++ [⟨0x100, 4, .ok⟩]) ∧
      (configFetch (fun _ => 0) .ok (fetchRun (fun _ => 0) d₀ []) 0x100 4).1 ≠ 0 ∧
      0x100 ≤ 0x102 ∧ 0x102 + 2 ≤ 0x100 + 4 ∧
      getConfWord (configFetch (fun _ => 0) .ok (fetchRun (fun _ => 0) d₀ []) 0x100 4).2 0x102 =
        some ((0 : UInt8).toUInt16 ||| ((0 : UInt8).toUInt16 <<< 8)) := by
  have hd : scanDevice (fun _ => 0) true false true .ok (fun _ => 0) = some _ := rfl
  exact ⟨_, hd, ⟨trivial, trivial⟩, by decide, by decide, by decide,
    getConf_after_fetchRun hd [] ⟨0x100, 4, .ok⟩ ⟨trivial, trivial⟩ (by decide) (by decide) (by decide) _⟩

end Config
end AdnacomEe
