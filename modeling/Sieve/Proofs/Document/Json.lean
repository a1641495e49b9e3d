import Sieve.Proofs.Document.Matching

-- What a store selects by a document as it stands in JSON.
namespace Sieve.Document

-- What a key asks for in a document that is asked of a whole: a combination of documents, a
-- constant, or a test of what is stored under a name.
inductive Key where
  | and
  | or
  | nor
  | expr
  | field (name : String)

-- Names that begin with a dollar sign are the store's own.
def Key.read? (key : String) : Option Key :=
  if key.toList.head? = some '$' then
    [("$and", Key.and), ("$or", .or), ("$nor", .nor), ("$expr", .expr)].lookup key
  else some (.field key)

-- What a key asks for in a test of one value.
inductive Operation where
  | not
  | oneOf
  | size
  | elementMatch
  | compare (op : Comparison)

def Operation.read? (key : String) : Option Operation :=
  [("$not", Operation.not), ("$in", .oneOf), ("$size", .size), ("$elemMatch", .elementMatch),
    ("$eq", .compare .equal), ("$ne", .compare .notEqual), ("$gt", .compare .greater),
    ("$gte", .compare .greaterOrEqual), ("$lt", .compare .less),
    ("$lte", .compare .lessOrEqual)].lookup key

-- Whether a document tests an element itself rather than fields of it.
def isTest : Json → Bool
  | .object ((key, _) :: _) => (Key.read? key).isNone
  | _ => false

mutual

-- Whether what is stored is selected. All members of a document have to agree.
def selects : Json → Stored → Bool
  | .object members, stored => selectsMembers members stored
  | _, _ => false

def selectsMembers : List (String × Json) → Stored → Bool
  | [], _ => true
  | (key, payload) :: rest, stored =>
    (match Key.read? key, payload with
    | some .and, .array parts => selectsAll parts stored
    | some .or, .array parts => selectsAny parts stored
    | some .nor, .array parts => !selectsAny parts stored
    | some .expr, .bool b => b
    | some (.field name), test => tests test (stored.dotted name)
    | _, _ => false) && selectsMembers rest stored

def selectsAll : List Json → Stored → Bool
  | [], _ => true
  | part :: rest, stored => selects part stored && selectsAll rest stored

def selectsAny : List Json → Stored → Bool
  | [], _ => false
  | part :: rest, stored => selects part stored || selectsAny rest stored

-- Whether one value passes a test, which may be just what it has to be equal to.
def tests : Json → Stored → Bool
  | .object members, stored =>
    match readOperand (.object members) with
    | some operand => stored.isOneOf operand
    | none => testsMembers members stored
  | literal, stored => (readOperand literal).any stored.isOneOf

def testsMembers : List (String × Json) → Stored → Bool
  | [], _ => true
  | (key, payload) :: rest, stored =>
    (match Operation.read? key, payload with
    | some .not, test => !tests test stored
    | some .oneOf, .array operands =>
      operands.any fun operand => (readOperand operand).any stored.isOneOf
    | some .size, .number (.integer n) =>
      match stored with
      | .array items => items.length == n
      | _ => false
    | some .elementMatch, test =>
      match stored with
      | .array items =>
        items.any fun item => if isTest test then tests test item else selects test item
      | _ => false
    | some (.compare op), literal => (readOperand literal).any (stored.compares op)
    | _, _ => false) && testsMembers rest stored

end

theorem Key.read?_of_ne {name : String} (h : name.toList.head? ≠ some '$') :
    Key.read? name = some (.field name) := by
  rw [Key.read?, if_neg h]

theorem Operation.read?_comparisonKey (op : Comparison) :
    read? (comparisonKey op) = some (.compare op) := by
  cases op <;> rfl

theorem selects_field {name : String} (hname : name.toList.head? ≠ some '$') (test : Json)
    (stored : Stored) :
    selects (.object [(name, test)]) stored = tests test (stored.dotted name) := by
  unfold selects selectsMembers
  rw [Key.read?_of_ne hname]
  exact Bool.and_true _

theorem tests_of_readOperand {json : Json} {operand : Operand} (h : readOperand json = some operand)
    (stored : Stored) : tests json stored = stored.isOneOf operand := by
  cases json <;> simp [tests, h]

-- Objects of operators are no literals.
theorem tests_object {key : String} {payload : Json} {rest : List (String × Json)}
    {operation : Operation} (hkey : Operation.read? key = some operation) (stored : Stored) :
    tests (.object ((key, payload) :: rest)) stored =
      testsMembers ((key, payload) :: rest) stored := by
  have hnone : readOperand (.object ((key, payload) :: rest)) = none := by
    unfold readOperand
    split
    all_goals first
      | rfl
      | (rename_i hobject
         cases hobject
         done)
      | (rename_i hobject
         cases hobject
         cases hkey)
  rw [tests, hnone]

section Combinations

variable (stored : Stored) (parts : List Json)

theorem selects_and :
    selects (.object [("$and", .array parts)]) stored = selectsAll parts stored := by
  have hkey : Key.read? "$and" = some .and := rfl
  simp [selects, selectsMembers, hkey]

theorem selects_or :
    selects (.object [("$or", .array parts)]) stored = selectsAny parts stored := by
  have hkey : Key.read? "$or" = some .or := rfl
  simp [selects, selectsMembers, hkey]

theorem selects_nor :
    selects (.object [("$nor", .array parts)]) stored = !selectsAny parts stored := by
  have hkey : Key.read? "$nor" = some .nor := rfl
  simp [selects, selectsMembers, hkey]

theorem selects_expr (b : Bool) : selects (.object [("$expr", .bool b)]) stored = b := by
  have hkey : Key.read? "$expr" = some .expr := rfl
  simp [selects, selectsMembers, hkey]

theorem tests_not (test : Json) :
    tests (.object [("$not", test)]) stored = !tests test stored := by
  have hkey : Operation.read? "$not" = some .not := rfl
  rw [tests_object hkey]
  simp [testsMembers, hkey]

theorem tests_in (operands : List Json) :
    tests (.object [("$in", .array operands)]) stored =
      operands.any fun operand => (readOperand operand).any stored.isOneOf := by
  have hkey : Operation.read? "$in" = some .oneOf := rfl
  rw [tests_object hkey]
  simp [testsMembers, hkey]

theorem tests_size (n : Nat) :
    tests (.object [("$size", .number (.integer n))]) stored = (Selector.size n).holds stored := by
  have hkey : Operation.read? "$size" = some .size := rfl
  rw [tests_object hkey]
  cases stored with
  | array items =>
      have hlength : ((items.length : Int) == (n : Int)) = (items.length == n) := by
        rw [Bool.eq_iff_iff, beq_iff_eq, beq_iff_eq]
        omega
      simp [testsMembers, hkey, Selector.holds, hlength]
  | _ => simp [testsMembers, hkey, Selector.holds]

theorem tests_elemMatch (test : Json) :
    tests (.object [("$elemMatch", test)]) stored =
      match stored with
      | .array items =>
        items.any fun item => if isTest test then tests test item else selects test item
      | _ => false := by
  have hkey : Operation.read? "$elemMatch" = some .elementMatch := rfl
  rw [tests_object hkey]
  cases stored <;> simp [testsMembers, hkey]

end Combinations

theorem testsMembers_comparison (op : Comparison) (literal : Json) (rest : List (String × Json))
    (stored : Stored) :
    testsMembers ((comparisonKey op, literal) :: rest) stored =
      ((readOperand literal).any (stored.compares op) && testsMembers rest stored) := by
  conv_lhs => unfold testsMembers
  rw [Operation.read?_comparisonKey]

theorem testsMembers_compares (comparisons : List (Comparison × Operand)) (stored : Stored) :
    testsMembers (comparisons.map fun (op, operand) => (comparisonKey op, operand.toJson)) stored =
      (Selector.compares comparisons).holds stored := by
  rw [Selector.holds]
  induction comparisons with
  | nil => rfl
  | cons comparison rest ih =>
      obtain ⟨op, operand⟩ := comparison
      rw [List.map_cons, List.all_cons, ← ih, testsMembers_comparison]

end Sieve.Document
