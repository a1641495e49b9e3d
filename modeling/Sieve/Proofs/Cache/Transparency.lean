import Mathlib.Tactic.Cases
import Sieve.Cache.Basic
import Sieve.Proofs.Cache.Shape

namespace Sieve.Cache

-- What callers do with a cache.
inductive Call where
  | get (record : RecordType) (options : Options) (rule : Option Rule)
  | clear

namespace Call

-- The operators that a call brings along.
def operators : Call → List CustomOperator
  | get _ options _ => options.operators
  | clear => []

-- The answer to a call without any cache.
def direct? : Call → Option (Except RuleError Filter)
  | get record options rule => some (Filter.build record options rule)
  | clear => none

end Call

-- The answers that a cache gives to calls in order; clearing has none.
def answers : Cache → List Call → List (Except RuleError Filter)
  | _, [] => []
  | cache, .get record options rule :: rest =>
    let (answer, cache) := cache.get record options rule
    answer :: answers cache rest
  | cache, .clear :: rest => answers cache.clear rest

-- A name and an identity belong to one operator at most.
def Identified (operators : List CustomOperator) : Prop :=
  ∀ op ∈ operators, ∀ op' ∈ operators, op.name = op'.name → op.id = op'.id → op = op'

private theorem eq_of_map_eq {operators : List CustomOperator} (h : Identified operators)
    {ops ops' : List CustomOperator} (hops : ops ⊆ operators) (hops' : ops' ⊆ operators)
    (heq : (ops.map fun op => (op.name, op.id)) = ops'.map fun op => (op.name, op.id)) :
    ops = ops' := by
  induction ops generalizing ops' with
  | nil => exact (List.map_eq_nil_iff.mp heq.symm).symm
  | cons op rest ih =>
      cases ops' with
      | nil => cases heq
      | cons op' rest' =>
          simp only [List.map_cons, List.cons.injEq, Prod.mk.injEq] at heq
          obtain ⟨⟨hname, hid⟩, hrest⟩ := heq
          obtain ⟨hop, hops⟩ := List.cons_subset.mp hops
          obtain ⟨hop', hops'⟩ := List.cons_subset.mp hops'
          rw [h op hop op' hop' hname hid, ih hops hops' hrest]

-- Every entry holds what planning comes to for some tree that is looked up by its key.
def Sound (operators : List CustomOperator) (cache : Cache) : Prop :=
  ∀ entry ∈ cache.entries, ∃ record options rule, options.operators ⊆ operators ∧
    entry.key = Key.of record options rule ∧ entry.plan = Plan.ofRule? record options rule

variable {operators : List CustomOperator} {cache : Cache}

theorem Sound.new (operators : List CustomOperator) (capacity : Nat) :
    Sound operators (new capacity) := by
  intro entry hentry
  cases hentry

theorem Sound.clear : Sound operators cache.clear := by
  intro entry hentry
  cases hentry

-- Neither the number of a last look-up nor an entry that is dropped matters.
theorem Sound.of_mem {cache' : Cache} (h : Sound operators cache)
    (hentries : ∀ entry ∈ cache'.entries,
      ∃ other ∈ cache.entries, other.key = entry.key ∧ other.plan = entry.plan) :
    Sound operators cache' := by
  intro entry hentry
  obtain ⟨other, hother, hkey, hplan⟩ := hentries entry hentry
  rw [← hkey, ← hplan]
  exact h other hother

theorem Sound.hit (h : Sound operators cache) (key : Key) : Sound operators (cache.hit key) := by
  apply h.of_mem
  intro entry hentry
  obtain ⟨other, hother, rfl⟩ := List.mem_map.mp hentry
  refine ⟨other, hother, ?_⟩
  split <;> exact ⟨rfl, rfl⟩

theorem Sound.evict (h : Sound operators cache) : Sound operators cache.evict := by
  apply h.of_mem
  intro entry hentry
  refine ⟨entry, ?_, rfl, rfl⟩
  unfold Cache.evict at hentry
  split at hentry
  · exact List.mem_of_mem_eraseP hentry
  · exact hentry

theorem Sound.miss (h : Sound operators cache) (record : RecordType) (options : Options)
    (rule : Option Rule) (hoperators : options.operators ⊆ operators) :
    Sound operators
      (cache.miss (Key.of record options rule) (Plan.ofRule? record options rule)) := by
  intro other hother
  rcases List.mem_cons.mp hother with rfl | hmem
  · exact ⟨record, options, rule, hoperators, rfl, rfl⟩
  · split at hmem
    · exact h.evict other hmem
    · exact h other hmem

-- What one look-up does: it comes to the plan of its own tree, and the entries stay sound.
theorem Sound.plan (h : Sound operators cache) (hidentified : Identified operators)
    (record : RecordType) (options : Options) (rule : Option Rule)
    (hoperators : options.operators ⊆ operators) :
    (cache.plan record options rule).1 = Plan.ofRule? record options rule ∧
      Sound operators (cache.plan record options rule).2 := by
  have hticked : Sound operators cache.ticked := h
  simp only [Cache.plan]
  cases hfind : cache.ticked.find? (Key.of record options rule) with
  | none => exact ⟨rfl, hticked.miss record options rule hoperators⟩
  | some entry =>
      have hentry : entry ∈ cache.entries := List.mem_of_find?_eq_some hfind
      have hkey : entry.key = Key.of record options rule := by
        simpa using List.find?_some hfind
      obtain ⟨record', options', rule', hops, hkey', hplan⟩ := h entry hentry
      refine ⟨?_, hticked.hit _⟩
      have hof := hkey'.symm.trans hkey
      change entry.plan = _
      rw [hplan]
      exact Plan.ofRule?_eq_of_key hof
        (eq_of_map_eq hidentified hops hoperators (Key.mk.inj hof).2.2.2.2.2)

theorem Sound.get (h : Sound operators cache) (hidentified : Identified operators)
    (record : RecordType) (options : Options) (rule : Option Rule)
    (hoperators : options.operators ⊆ operators) :
    (cache.get record options rule).1 = Filter.build record options rule ∧
      Sound operators (cache.get record options rule).2 := by
  obtain ⟨hplan, hsound⟩ := h.plan hidentified record options rule hoperators
  refine ⟨?_, hsound⟩
  simp only [Cache.get, hplan, Filter.build, compile]
  cases Plan.ofRule? record options rule with
  | error e => rfl
  | ok plan =>
      cases plan.bind? record.catalog options rule with
      | error e => rfl
      | ok condition => rfl

theorem Sound.answers (h : Sound operators cache) (hidentified : Identified operators)
    (calls : List Call) (hcalls : ∀ call ∈ calls, call.operators ⊆ operators) :
    cache.answers calls = calls.filterMap Call.direct? := by
  induction calls generalizing cache with
  | nil => rfl
  | cons call rest ih =>
      obtain ⟨hcall, hrest⟩ := List.forall_mem_cons.mp hcalls
      cases call with
      | clear => exact ih Sound.clear hrest
      | get record options rule =>
          obtain ⟨hanswer, hsound⟩ := h.get hidentified record options rule hcall
          change (cache.get record options rule).1 ::
            (cache.get record options rule).2.answers rest = _
          rw [hanswer, ih hsound hrest]
          rfl

-- A cache is never noticed: whatever it has been through, each call is answered as if its tree
-- were made into a filter on the spot.
theorem answers_eq_direct (capacity : Nat) (calls : List Call)
    (hidentified : Identified (calls.flatMap Call.operators)) :
    (new capacity).answers calls = calls.filterMap Call.direct? := by
  apply (Sound.new _ capacity).answers hidentified
  intro call hcall op hop
  exact List.mem_flatMap.mpr ⟨call, hcall, hop⟩

private def rows : RecordType :=
  ⟨[⟨"Row", [("n", .scalar .long false), ("s", .scalar .string false)], none⟩], 0⟩

private def called (options : Options) (operator : String) (n : Int64) : Call :=
  .get rows options (some (.leaf "n" operator "long" (some (.int n))))

-- Two operators of one name, a plan that serves two literals, and a tree whose plan is dropped.
private def busy : List Call :=
  [called { operators := [.anyOf "near" 0] } "near" 1,
    called { operators := [.anyOf "near" 1] } "near" 2, called {} "equal" 3, called {} "equal" 4,
    .clear, called {} "unheard" 5, called {} "unheard" 6]

theorem answers_busy :
    Identified (busy.flatMap Call.operators) ∧
      (new 1).answers busy = busy.filterMap Call.direct? := by
  have h : Identified (busy.flatMap Call.operators) := by
    have hops : busy.flatMap Call.operators = [.anyOf "near" 0, .anyOf "near" 1] := rfl
    simp [Identified, hops, CustomOperator.anyOf]
  exact ⟨h, answers_eq_direct 1 busy h⟩

end Sieve.Cache
