import Mathlib.Data.List.Induction
import Mathlib.Data.List.Nodup
import Mathlib.Data.List.Perm.Basic
import Mathlib.Data.List.TakeDrop
import Sieve.Proofs.Cache.Transparency

-- Which keys a cache holds after any calls, and which it drops for them.
namespace Sieve.Cache

namespace Call

-- The key that a call looks up.
def key? : Call → Option Key
  | get record options rule => some (Key.of record options rule)
  | clear => none

end Call

-- The cache after one call.
def after (cache : Cache) : Call → Cache
  | .get record options rule => (cache.get record options rule).2
  | .clear => cache.clear

def run (cache : Cache) (calls : List Call) : Cache :=
  calls.foldl after cache

def keys (cache : Cache) : List Key :=
  cache.entries.map Entry.key

def lookups (calls : List Call) : Nat :=
  (calls.filterMap Call.key?).length

-- How many entries the clears among calls drop.
def dropped (cache : Cache) : List Call → Nat
  | [] => 0
  | .clear :: rest => cache.length + cache.clear.dropped rest
  | .get record options rule :: rest => (cache.get record options rule).2.dropped rest

-- The keys looked up since the last clear, of calls with the latest in front.
def sinceClear : List Call → List Key
  | .get record options rule :: rest => Key.of record options rule :: sinceClear rest
  | _ => []

-- The same keys, each once and by its last look-up, the latest in front.
def recent (calls : List Call) : List Key :=
  (sinceClear calls.reverse).eraseDups

section Lists

variable {α : Type} [DecidableEq α]

theorem eraseDups_filter (p : α → Bool) (l : List α) :
    (l.filter p).eraseDups = l.eraseDups.filter p := by
  match l with
  | [] => rfl
  | a :: l =>
      have hrest := eraseDups_filter p (l.filter (!· == a))
      rw [List.eraseDups_cons, List.filter_cons, List.filter_cons, ← hrest, List.filter_filter]
      cases hp : p a with
      | true =>
          rw [if_pos rfl, if_pos rfl, List.eraseDups_cons, List.filter_filter]
          simp only [Bool.and_comm]
      | false =>
          rw [if_neg Bool.false_ne_true, if_neg Bool.false_ne_true]
          congr 1
          refine List.filter_congr fun b _ => ?_
          by_cases hb : b = a <;> simp [hb, hp]
termination_by l.length
decreasing_by exact Nat.lt_succ_of_le (List.length_filter_le _ _)

theorem nodup_eraseDups (l : List α) : l.eraseDups.Nodup := by
  match l with
  | [] => exact List.nodup_nil
  | a :: l =>
      rw [List.eraseDups_cons, List.nodup_cons]
      exact ⟨by simp [List.mem_eraseDups], nodup_eraseDups (l.filter (!· == a))⟩
termination_by l.length
decreasing_by exact Nat.lt_succ_of_le (List.length_filter_le _ _)

-- The first elements of a list from which one is removed.
theorem take_erase_take (l : List α) (a : α) (n : Nat) :
    ((l.take (n + 1)).erase a).take n = (l.erase a).take n := by
  induction l generalizing n with
  | nil => rfl
  | cons b l ih =>
      rw [List.take_succ_cons, List.erase_cons, List.erase_cons]
      split
      · rw [List.take_take, Nat.min_self]
      · cases n with
        | zero => rfl
        | succ n => rw [List.take_succ_cons, List.take_succ_cons, ih]

end Lists

theorem recent_concat_get (calls : List Call) (record : RecordType) (options : Options)
    (rule : Option Rule) :
    recent (calls ++ [.get record options rule]) =
      Key.of record options rule :: (recent calls).erase (Key.of record options rule) := by
  rw [recent, List.reverse_concat, sinceClear, List.eraseDups_cons, eraseDups_filter, recent,
    (nodup_eraseDups _).erase_eq_filter]
  rfl

theorem recent_concat_clear (calls : List Call) : recent (calls ++ [.clear]) = [] := by
  rw [recent, List.reverse_concat]
  rfl

-- The entries of a cache by their last look-up, the latest in front. No look-up has had a greater
-- number than the tick.
structure Ordered (cache : Cache) (kept : List Entry) : Prop where
  perm : kept.Perm cache.entries
  falling : kept.Pairwise fun entry other => other.lastUsed < entry.lastUsed
  bounded : ∀ entry ∈ kept, entry.lastUsed ≤ cache.tick
  distinct : (kept.map Entry.key).Nodup

-- What a look-up does to a cache that holds the keys `kept`, the latest look-up in front. It finds
-- the key, or takes it in; where there is no room, it drops the key in the back.
def Follows (cache next : Cache) (kept : List Key) (key : Key) : Prop :=
  if key ∈ kept then
    next.stats = { cache.stats with hits := cache.stats.hits + 1 } ∧ next.keys.Perm cache.keys
  else if kept.length < cache.capacity then
    next.stats = { cache.stats with misses := cache.stats.misses + 1 } ∧
      next.keys.Perm (key :: cache.keys)
  else
    ∃ oldest, kept.getLast? = some oldest ∧
      next.stats = { cache.stats with
        misses := cache.stats.misses + 1, evictions := cache.stats.evictions + 1 } ∧
      next.keys.Perm (key :: cache.keys.erase oldest)

namespace Ordered

variable {cache : Cache} {kept : List Entry}

theorem keys_perm (h : Ordered cache kept) : cache.keys.Perm (kept.map Entry.key) :=
  (h.perm.map Entry.key).symm

theorem new (capacity : Nat) : Ordered (new capacity) [] :=
  ⟨.refl _, .nil, nofun, List.nodup_nil⟩

theorem clear : Ordered cache.clear [] :=
  ⟨.refl _, .nil, nofun, List.nodup_nil⟩

-- The number of a new look-up is greater than all before, as long as 64 bits can count them.
theorem lt_ticked (h : Ordered cache kept) (htick : cache.tick.toNat + 1 < UInt64.size) :
    ∀ entry ∈ kept, entry.lastUsed < cache.ticked.tick := by
  intro entry hentry
  have hle := UInt64.le_iff_toNat_le.mp (h.bounded entry hentry)
  rw [UInt64.lt_iff_toNat_lt, ticked, UInt64.toNat_add, UInt64.toNat_one, Nat.mod_eq_of_lt htick]
  omega

-- A key is held once.
theorem notMem_of_middle {front back : List Entry} {entry : Entry}
    (h : Ordered cache (front ++ entry :: back)) :
    entry.key ∉ (front ++ back).map Entry.key := by
  have hdistinct := h.distinct
  rw [List.map_append, List.map_cons, List.nodup_middle, List.nodup_cons, ← List.map_append]
    at hdistinct
  exact hdistinct.1

theorem erase_middle {front back : List Entry} {entry : Entry}
    (h : Ordered cache (front ++ entry :: back)) :
    ((front ++ entry :: back).map Entry.key).erase entry.key = (front ++ back).map Entry.key := by
  have hkey := h.notMem_of_middle
  rw [List.map_append, List.mem_append, not_or] at hkey
  rw [List.map_append, List.erase_append_right _ hkey.1, List.map_cons, List.erase_cons_head,
    List.map_append]

-- A new entry, or one that is looked up, goes to the front with the number of the look-up.
theorem cons {next : Cache} {entry : Entry} (h : Ordered cache kept) {others : List Entry}
    (hothers : others.Sublist kept) (hkey : entry.key ∉ others.map Entry.key)
    (htick : cache.tick.toNat + 1 < UInt64.size) (hnext : next.tick = cache.ticked.tick)
    (hentry : entry.lastUsed = cache.ticked.tick) (hperm : (entry :: others).Perm next.entries) :
    Ordered next (entry :: others) := by
  have hlt := h.lt_ticked htick
  refine ⟨hperm, ?_, ?_, ?_⟩
  · refine List.pairwise_cons.mpr ⟨fun other hother => ?_, h.falling.sublist hothers⟩
    rw [hentry]
    exact hlt other (hothers.subset hother)
  · rw [hnext]
    refine List.forall_mem_cons.mpr ⟨hentry ▸ UInt64.le_refl _, fun other hother => ?_⟩
    exact UInt64.le_of_lt (hlt other (hothers.subset hother))
  · exact List.nodup_cons.mpr ⟨hkey, h.distinct.sublist (hothers.map _)⟩

-- Setting the number of the one entry that has a key.
theorem hit_perm {front back : List Entry} {entry : Entry}
    (h : Ordered cache (front ++ entry :: back)) :
    ({ entry with lastUsed := cache.ticked.tick } :: (front ++ back)).Perm
      (cache.ticked.hit entry.key).entries := by
  have hentries := (List.perm_middle.symm.trans h.perm).map fun other : Entry =>
    if other.key == entry.key then { other with lastUsed := cache.ticked.tick } else other
  rw [List.map_cons, beq_self_eq_true, if_pos rfl] at hentries
  refine .trans (.of_eq (congrArg _ ?_)) hentries
  refine ((List.map_congr_left fun other hother => ?_).trans (List.map_id _)).symm
  have hne : other.key ≠ entry.key := by
    intro heq
    exact h.notMem_of_middle (heq ▸ List.mem_map_of_mem hother)
  rw [beq_eq_false_iff_ne.mpr hne, if_neg Bool.false_ne_true]
  rfl

-- The entry in the back has the least number, and so it is the one that is dropped.
theorem evict {front : List Entry} {last : Entry} (h : Ordered cache (front ++ [last])) :
    front.Perm cache.evict.entries ∧
      cache.evict = { cache with
        entries := cache.evict.entries
        stats := { cache.stats with evictions := cache.stats.evictions + 1 } } := by
  obtain ⟨-, -, hlast⟩ := List.pairwise_append.mp h.falling
  have hmem : last ∈ cache.entries := h.perm.subset (by simp)
  obtain ⟨oldest, holdest⟩ := Option.isSome_iff_exists.mp
    (List.isSome_minOn?_of_mem (f := Entry.lastUsed) hmem)
  have hle : oldest.lastUsed ≤ last.lastUsed := by
    simpa [holdest] using List.apply_get_minOn?_le_of_mem (f := Entry.lastUsed) hmem
  have heq : oldest = last := by
    rcases List.mem_append.mp (h.perm.symm.subset (List.minOn?_mem holdest)) with hfront | hback
    · exact absurd (hlast oldest hfront last (.head _)) (UInt64.not_lt.mpr hle)
    · exact List.mem_singleton.mp hback
  rw [Cache.evict, holdest, heq]
  refine ⟨?_, rfl⟩
  have hdistinct : (front ++ [last]).Pairwise fun entry other =>
      (entry.key == last.key) = true → (other.key == last.key) = true → False := by
    refine (List.pairwise_map.mp h.distinct).imp fun {entry other} hne hentry hother => ?_
    exact hne ((beq_iff_eq.mp hentry).trans (beq_iff_eq.mp hother).symm)
  have hfront : ∀ entry ∈ front, ¬(entry.key == last.key) = true := by
    intro entry hentry hkey
    refine h.notMem_of_middle (beq_iff_eq.mp hkey ▸ List.mem_map_of_mem ?_)
    simpa using hentry
  have hperm := h.perm.eraseP _ hdistinct
  rw [List.eraseP_append_right _ hfront] at hperm
  simpa using hperm

end Ordered

-- What one look-up comes to: its key is in front, the key that there is no room for is dropped.
def Looked (cache next : Cache) (kept : List Key) (key : Key) : Prop :=
  (∃ entries, Ordered next entries ∧
    entries.map Entry.key = (key :: kept.erase key).take cache.capacity) ∧
  Follows cache next kept key

namespace Ordered

variable {cache : Cache} {kept : List Entry} {key : Key} {plan : Except RuleError Plan}

theorem hit {entry : Entry} (h : Ordered cache kept) (hentry : entry ∈ kept)
    (hroom : kept.length ≤ cache.capacity) (htick : cache.tick.toNat + 1 < UInt64.size) :
    Looked cache (cache.ticked.hit entry.key) (kept.map Entry.key) entry.key := by
  obtain ⟨front, back, rfl⟩ := List.append_of_mem hentry
  have hsublist : (front ++ back).Sublist (front ++ entry :: back) :=
    (List.Sublist.refl front).append (List.sublist_cons_self entry back)
  have hnext : Ordered (cache.ticked.hit entry.key)
      ({ entry with lastUsed := cache.ticked.tick } :: (front ++ back)) :=
    h.cons hsublist h.notMem_of_middle htick rfl rfl h.hit_perm
  constructor
  · refine ⟨_, hnext, ?_⟩
    rw [h.erase_middle, List.take_of_length_le (by simpa [Nat.add_assoc] using hroom)]
    rfl
  · rw [Follows, if_pos (List.mem_map_of_mem hentry)]
    refine ⟨rfl, hnext.keys_perm.trans (.trans ?_ h.keys_perm.symm)⟩
    simpa using List.perm_middle.symm

theorem miss (h : Ordered cache kept) (hkey : key ∉ kept.map Entry.key)
    (hroom : kept.length < cache.capacity) (htick : cache.tick.toNat + 1 < UInt64.size) :
    Looked cache (cache.ticked.miss key plan) (kept.map Entry.key) key := by
  have hfull : cache.ticked.isFull = false := by
    rw [isFull, decide_eq_false_iff_not, Nat.not_le]
    exact h.perm.length_eq ▸ hroom
  have hmiss : cache.ticked.miss key plan = { cache.ticked with
      entries := ⟨key, plan, cache.ticked.tick⟩ :: cache.entries
      stats := { cache.stats with misses := cache.stats.misses + 1 } } := by
    rw [Cache.miss, hfull]
    rfl
  have hnext : Ordered (cache.ticked.miss key plan) (⟨key, plan, cache.ticked.tick⟩ :: kept) :=
    h.cons (.refl _) hkey htick (by rw [hmiss]) rfl (by rw [hmiss]; exact h.perm.cons _)
  constructor
  · refine ⟨_, hnext, ?_⟩
    rw [List.erase_of_not_mem hkey, List.take_of_length_le (by simpa using Nat.succ_le_of_lt hroom)]
    rfl
  · rw [Follows, if_neg hkey, if_pos (by simpa using hroom)]
    exact ⟨by rw [hmiss], hnext.keys_perm.trans (h.keys_perm.symm.cons key)⟩

theorem miss_full (h : Ordered cache kept) (hkey : key ∉ kept.map Entry.key)
    (hfull : kept.length = cache.capacity) (htick : cache.tick.toNat + 1 < UInt64.size) :
    Looked cache (cache.ticked.miss key plan) (kept.map Entry.key) key := by
  obtain ⟨front, last, rfl⟩ : ∃ front last, kept = front ++ [last] := by
    have hne : kept ≠ [] := by
      rintro rfl
      exact absurd hfull (Nat.ne_of_lt cache.hasRoom)
    exact ⟨kept.dropLast, kept.getLast hne, (List.dropLast_append_getLast hne).symm⟩
  have hticked : Ordered cache.ticked (front ++ [last]) :=
    ⟨h.perm, h.falling, fun entry hentry => UInt64.le_of_lt (h.lt_ticked htick entry hentry),
      h.distinct⟩
  obtain ⟨hperm, hevict⟩ := hticked.evict
  have hisFull : cache.ticked.isFull = true := by
    rw [isFull, decide_eq_true_eq]
    exact Nat.le_of_eq (hfull.symm.trans h.perm.length_eq)
  have hmiss : cache.ticked.miss key plan = { cache.ticked with
      entries := ⟨key, plan, cache.ticked.tick⟩ :: cache.ticked.evict.entries
      stats := { cache.stats with
        misses := cache.stats.misses + 1
        evictions := cache.stats.evictions + 1 } } := by
    rw [Cache.miss, hisFull, if_pos rfl, hevict]
    rfl
  have hfront : key ∉ front.map Entry.key := by
    rw [List.map_append, List.mem_append, not_or] at hkey
    exact hkey.1
  have hnext : Ordered (cache.ticked.miss key plan) (⟨key, plan, cache.ticked.tick⟩ :: front) :=
    h.cons (List.sublist_append_left _ _) hfront htick (by rw [hmiss]) rfl
      (by rw [hmiss]; exact hperm.cons _)
  constructor
  · refine ⟨_, hnext, ?_⟩
    have hlength : front.length + 1 = cache.capacity := by simpa using hfull
    rw [List.erase_of_not_mem hkey, ← hlength, List.take_succ_cons, List.map_append,
      List.take_left' (by simp)]
    rfl
  · rw [Follows, if_neg hkey, if_neg (by simp [← hfull])]
    refine ⟨last.key, by simp, by rw [hmiss], hnext.keys_perm.trans (.cons key ?_)⟩
    have herase := h.keys_perm.symm.erase last.key
    rwa [h.erase_middle, List.append_nil] at herase

-- The key of a look-up is held, or it is taken in.
theorem get (h : Ordered cache kept) (hroom : kept.length ≤ cache.capacity)
    (htick : cache.tick.toNat + 1 < UInt64.size) (record : RecordType) (options : Options)
    (rule : Option Rule) :
    Looked cache (cache.get record options rule).2 (kept.map Entry.key)
      (Key.of record options rule) := by
  have hget : (cache.get record options rule).2 = (cache.plan record options rule).2 := rfl
  rw [hget, Cache.plan]
  generalize Key.of record options rule = key
  dsimp only
  cases hfind : cache.ticked.find? key with
  | some entry =>
      have hentry : entry ∈ kept := h.perm.symm.subset (List.mem_of_find?_eq_some hfind)
      obtain rfl : entry.key = key := by simpa using List.find?_some hfind
      exact h.hit hentry hroom htick
  | none =>
      have hkey : key ∉ kept.map Entry.key := by
        intro hmem
        obtain ⟨entry, hentry, rfl⟩ := List.mem_map.mp hmem
        simpa using List.find?_eq_none.mp hfind entry (h.perm.subset hentry)
      rcases Nat.lt_or_eq_of_le hroom with hlt | heq
      · exact h.miss hkey hlt htick
      · exact h.miss_full hkey heq htick

end Ordered

theorem evict_eq (cache : Cache) :
    ∃ entries stats, cache.evict = { cache with entries, stats } := by
  rw [evict]
  split <;> exact ⟨_, _, rfl⟩

-- A look-up counts on and leaves the capacity.
theorem get_eq (cache : Cache) (record : RecordType) (options : Options) (rule : Option Rule) :
    ∃ entries stats,
      (cache.get record options rule).2 = { cache.ticked with entries, stats } := by
  have hget : (cache.get record options rule).2 = (cache.plan record options rule).2 := rfl
  rw [hget, Cache.plan]
  dsimp only
  split
  · exact ⟨_, _, rfl⟩
  · rw [Cache.miss]
    dsimp only
    split
    · obtain ⟨entries, stats, hevict⟩ := cache.ticked.evict_eq
      rw [hevict]
      exact ⟨_, _, rfl⟩
    · exact ⟨_, _, rfl⟩

-- What the counters of a cache say of a look-up.
theorem Follows.counts {cache next : Cache} {kept : List Key} {key : Key}
    (h : Follows cache next kept key) (hkeys : cache.keys.Perm kept) :
    next.stats.hits + next.stats.misses = cache.stats.hits + cache.stats.misses + 1 ∧
      next.stats.misses + cache.length + cache.stats.evictions =
        cache.stats.misses + next.length + next.stats.evictions := by
  have hlength (cache : Cache) : cache.keys.length = cache.length := List.length_map ..
  unfold Follows at h
  split at h
  · obtain ⟨hstats, hperm⟩ := h
    have hnext := hperm.length_eq
    rw [hlength, hlength] at hnext
    rw [hstats, hnext]
    dsimp only
    omega
  · split at h
    · obtain ⟨hstats, hperm⟩ := h
      have hnext := hperm.length_eq
      rw [List.length_cons, hlength, hlength] at hnext
      rw [hstats, hnext]
      dsimp only
      omega
    · obtain ⟨oldest, holdest, hstats, hperm⟩ := h
      have hmem : oldest ∈ cache.keys := hkeys.symm.subset (List.mem_of_getLast? holdest)
      have hnext := hperm.length_eq
      have hpos := List.length_pos_of_mem hmem
      rw [List.length_cons, List.length_erase_of_mem hmem, hlength, hlength] at hnext
      rw [hlength] at hpos
      rw [hstats]
      dsimp only
      omega

theorem dropped_append (cache : Cache) (calls more : List Call) :
    cache.dropped (calls ++ more) = cache.dropped calls + (cache.run calls).dropped more := by
  induction calls generalizing cache with
  | nil => simp [dropped, run]
  | cons call rest ih =>
      cases call with
      | clear => rw [List.cons_append, dropped, ih, dropped, Nat.add_assoc]; rfl
      | get record options rule => rw [List.cons_append, dropped, ih, dropped]; rfl

theorem run_concat (cache : Cache) (calls : List Call) (call : Call) :
    cache.run (calls ++ [call]) = (cache.run calls).after call :=
  List.foldl_concat ..

theorem lookups_concat_get (calls : List Call) (record : RecordType) (options : Options)
    (rule : Option Rule) :
    lookups (calls ++ [.get record options rule]) = lookups calls + 1 := by
  simp [lookups, Call.key?]

theorem lookups_concat_clear (calls : List Call) : lookups (calls ++ [.clear]) = lookups calls := by
  simp [lookups, Call.key?]

theorem lookups_le_append (calls more : List Call) :
    lookups calls ≤ lookups (calls ++ more) := by
  rw [lookups, lookups, List.filterMap_append, List.length_append]
  exact Nat.le_add_right ..

-- How far a cache has come that was new before some calls.
structure Ran (capacity : Nat) (calls : List Call) (cache : Cache) : Prop where
  ordered : ∃ entries, Ordered cache entries ∧
    entries.map Entry.key = (recent calls).take capacity
  capacity : cache.capacity = capacity
  tick : cache.tick.toNat = lookups calls
  counted : cache.stats.hits + cache.stats.misses = lookups calls

namespace Ran

variable {capacity : Nat} {calls : List Call} {cache : Cache}

theorem keys_perm (h : Ran capacity calls cache) :
    cache.keys.Perm ((recent calls).take capacity) := by
  obtain ⟨⟨entries, hordered, hentries⟩, -⟩ := h
  exact hentries ▸ hordered.keys_perm

-- The keys in front are those of the new look-up and of the others that there is room for.
theorem looked (h : Ran capacity calls cache) (hlookups : lookups calls + 1 < UInt64.size)
    (record : RecordType) (options : Options) (rule : Option Rule) :
    Looked cache (cache.get record options rule).2 ((recent calls).take capacity)
      (Key.of record options rule) := by
  obtain ⟨⟨entries, hordered, hentries⟩, hcapacity, htick, -⟩ := h
  have hroom : entries.length ≤ cache.capacity := by
    rw [← List.length_map (f := Entry.key), hentries, hcapacity, List.length_take]
    exact Nat.min_le_left ..
  rw [← hentries]
  exact hordered.get hroom (htick ▸ hlookups) record options rule

theorem clear (h : Ran capacity calls cache) : Ran capacity (calls ++ [.clear]) cache.clear where
  ordered := ⟨[], .clear, by simp [recent_concat_clear]⟩
  capacity := h.capacity
  tick := by rw [lookups_concat_clear]; exact h.tick
  counted := by rw [lookups_concat_clear]; exact h.counted

theorem get (h : Ran capacity calls cache) (hlookups : lookups calls + 1 < UInt64.size)
    (record : RecordType) (options : Options) (rule : Option Rule) :
    Ran capacity (calls ++ [.get record options rule]) (cache.get record options rule).2 := by
  obtain ⟨⟨entries, hordered, hentries⟩, hfollows⟩ := h.looked hlookups record options rule
  obtain ⟨entries', stats, hget⟩ := cache.get_eq record options rule
  have hcapacity : (cache.get record options rule).2.capacity = capacity := by
    rw [hget]
    exact h.capacity
  refine ⟨⟨entries, hordered, ?_⟩, hcapacity, ?_, ?_⟩
  · rw [hentries, recent_concat_get, h.capacity]
    obtain ⟨room, rfl⟩ : ∃ room, capacity = room + 1 :=
      Nat.exists_eq_add_of_lt (h.capacity ▸ cache.hasRoom) |>.imp fun room heq => by omega
    rw [List.take_succ_cons, List.take_succ_cons, take_erase_take]
  · rw [lookups_concat_get, hget, ← h.tick]
    exact (UInt64.toNat_add ..).trans (Nat.mod_eq_of_lt (h.tick ▸ hlookups))
  · rw [lookups_concat_get, ← h.counted]
    exact (hfollows.counts h.keys_perm).1

-- After any calls, fewer look-ups than 64 bits can count among them.
theorem of_calls (capacity : Nat) (calls : List Call) (hlookups : lookups calls < UInt64.size) :
    Ran (max capacity 1) calls ((new capacity).run calls) := by
  induction calls using List.reverseRecOn with
  | nil => exact ⟨⟨[], .new capacity, List.take_nil.symm⟩, rfl, rfl, rfl⟩
  | append_singleton calls call ih =>
      have hran := ih (Nat.lt_of_le_of_lt (lookups_le_append calls [call]) hlookups)
      rw [run_concat]
      cases call with
      | clear => exact hran.clear
      | get record options rule =>
          rw [lookups_concat_get] at hlookups
          exact hran.get hlookups record options rule

end Ran

theorem misses_eq (capacity : Nat) (calls : List Call) (hlookups : lookups calls < UInt64.size) :
    ((new capacity).run calls).stats.misses = ((new capacity).run calls).length +
      ((new capacity).run calls).stats.evictions + (new capacity).dropped calls := by
  induction calls using List.reverseRecOn with
  | nil => rfl
  | append_singleton calls call ih =>
      have hless := Nat.lt_of_le_of_lt (lookups_le_append calls [call]) hlookups
      have hmisses := ih hless
      have hran := Ran.of_calls capacity calls hless
      rw [run_concat, dropped_append]
      cases call with
      | clear =>
          have hnone : ((new capacity).run calls).clear.dropped [] = 0 := rfl
          have hempty : ((new capacity).run calls).clear.length = 0 := rfl
          have hstats : ((new capacity).run calls).clear.stats = ((new capacity).run calls).stats :=
            rfl
          rw [after, dropped, hnone, hempty, hstats]
          omega
      | get record options rule =>
          rw [lookups_concat_get] at hlookups
          have hcounts := ((hran.looked hlookups record options rule).2.counts hran.keys_perm).2
          rw [after, dropped, dropped]
          omega

-- A cache holds the keys that were looked up last, as many as there is room for. A look-up finds
-- its key if it is held, and else takes it in for the one whose last look-up is the oldest. Every
-- look-up is counted, and so is every entry that is gone.
theorem keeps_latest (capacity : Nat) (calls : List Call) (hlookups : lookups calls < UInt64.size) :
    let room := max capacity 1
    let cache := (new capacity).run calls
    cache.capacity = room ∧ cache.keys.Perm ((recent calls).take room) ∧
      (∀ before record options rule after, calls = before ++ .get record options rule :: after →
        Follows ((new capacity).run before)
          ((new capacity).run (before ++ [.get record options rule]))
          ((recent before).take room) (Key.of record options rule)) ∧
      cache.stats.hits + cache.stats.misses = lookups calls ∧
      cache.stats.misses = cache.length + cache.stats.evictions + (new capacity).dropped calls := by
  have hran := Ran.of_calls capacity calls hlookups
  refine ⟨hran.capacity, hran.keys_perm, ?_, hran.counted, misses_eq capacity calls hlookups⟩
  rintro before record options rule after rfl
  have hbefore : lookups before + 1 < UInt64.size := by
    rw [← lookups_concat_get before record options rule]
    rw [List.append_cons] at hlookups
    exact Nat.lt_of_le_of_lt (lookups_le_append ..) hlookups
  rw [run_concat]
  exact ((Ran.of_calls capacity before (by omega)).looked hbefore record options rule).2

private def line : RecordType :=
  ⟨[⟨"Line", [("n", .scalar .long false)], none⟩], 0⟩

private def sought (operator : String) : Call :=
  .get line {} (some (.leaf "n" operator "long" (some (.int 1))))

-- A key that is found again and so outlives another, a clear, and a plan that cannot be made.
private def spread : List Call :=
  [sought "equal", sought "less", sought "equal", sought "greater", .clear, sought "unheard",
    sought "unheard", sought "less"]

theorem keeps_latest_spread :
    lookups spread < UInt64.size ∧ ((new 2).run spread).keys.Perm ((recent spread).take 2) ∧
      ((new 2).run spread).stats.hits + ((new 2).run spread).stats.misses = 7 ∧
      ((new 2).run spread).stats.misses =
        ((new 2).run spread).length + ((new 2).run spread).stats.evictions + 2 := by
  have hlookups : lookups spread < UInt64.size := by decide
  obtain ⟨-, hkeys, -, hcounted, hmisses⟩ := keeps_latest 2 spread hlookups
  have hdropped : (new 2).dropped spread = 2 := by decide
  exact ⟨hlookups, hkeys, hcounted, hmisses.trans (by rw [hdropped])⟩

end Sieve.Cache
