import Sieve.Cache.Key
import Sieve.Filter

namespace Sieve

namespace Cache

structure Stats where
  hits : Nat := 0
  misses : Nat := 0
  evictions : Nat := 0
  deriving DecidableEq

-- A plan, or the error that planning came to, under the key it is found by, and the number of its
-- last look-up.
structure Entry where
  key : Key
  plan : Except RuleError Plan
  lastUsed : UInt64

end Cache

-- Plans kept for trees that differ in literals alone, in no order that matters. There is room for
-- at least one. Look-ups are numbered by a counter of 64 bits.
structure Cache where
  capacity : Nat
  entries : List Cache.Entry := []
  tick : UInt64 := 0
  stats : Cache.Stats := {}
  hasRoom : 0 < capacity

namespace Cache

def new (capacity : Nat) : Cache where
  capacity := max capacity 1
  hasRoom := by omega

def length (cache : Cache) : Nat :=
  cache.entries.length

def find? (cache : Cache) (key : Key) : Option Entry :=
  cache.entries.find? fun entry => entry.key == key

def isFull (cache : Cache) : Bool :=
  cache.capacity ≤ cache.entries.length

-- One look-up more.
def ticked (cache : Cache) : Cache :=
  { cache with tick := cache.tick + 1 }

-- The key is held, and the present look-up becomes its last.
def hit (cache : Cache) (key : Key) : Cache :=
  { cache with
    entries := cache.entries.map fun entry =>
      if entry.key == key then { entry with lastUsed := cache.tick } else entry
    stats := { cache.stats with hits := cache.stats.hits + 1 } }

-- Drops the entry whose last look-up has the least number.
def evict (cache : Cache) : Cache :=
  match cache.entries.minOn? Entry.lastUsed with
  | some oldest =>
    { cache with
      entries := cache.entries.eraseP fun entry => entry.key == oldest.key
      stats := { cache.stats with evictions := cache.stats.evictions + 1 } }
  | none => cache

-- The key is not held. It is taken in, once there is room.
def miss (cache : Cache) (key : Key) (plan : Except RuleError Plan) : Cache :=
  let cache := if cache.isFull then cache.evict else cache
  { cache with
    entries := ⟨key, plan, cache.tick⟩ :: cache.entries
    stats := { cache.stats with misses := cache.stats.misses + 1 } }

-- Looks up the plan for a tree, and makes it if it is not held.
def plan (cache : Cache) (record : RecordType) (options : Options) (rule : Option Rule) :
    Except RuleError Plan × Cache :=
  let key := Key.of record options rule
  let cache := cache.ticked
  match cache.find? key with
  | some entry => (entry.plan, cache.hit key)
  | none =>
    let plan := Plan.ofRule? record options rule
    (plan, cache.miss key plan)

-- The filter that a rule tree stands for. The literals are always those of the call.
def get (cache : Cache) (record : RecordType) (options : Options) (rule : Option Rule) :
    Except RuleError Filter × Cache :=
  let (plan, cache) := cache.plan record options rule
  let filter := do
    let plan ← plan
    let condition ← plan.bind? record.catalog options rule
    return ⟨condition, options.coercer⟩
  (filter, cache)

-- Drops all plans and goes on counting.
def clear (cache : Cache) : Cache :=
  { cache with entries := [] }

def inspect (cache : Cache) : String :=
  "FilterCache \x7b capacity: " ++ Decimal.renderNat cache.capacity ++
    ", entries: " ++ Decimal.renderNat cache.length ++
    ", stats: CacheStats \x7b hits: " ++ Decimal.renderNat cache.stats.hits ++
    ", misses: " ++ Decimal.renderNat cache.stats.misses ++
    ", evictions: " ++ Decimal.renderNat cache.stats.evictions ++ " \x7d \x7d"

end Cache

end Sieve
