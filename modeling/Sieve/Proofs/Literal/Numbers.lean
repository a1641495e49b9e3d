import Sieve.Literal.Tokens
import Sieve.Proofs.Coercer.Integer

-- Numbers of a literal: what they are written as in a locale is read there as the same numbers.
namespace Sieve

variable {c : Coercer} {locale : Locale} {raw : RawValue} {items : List RawValue} {x : Float}

namespace RawValue

mutual

-- The scalars of a literal from left to right, also those in lists inside of lists.
def leaves : RawValue → List RawValue
  | list items => leavesOf items
  | scalar => [scalar]

def leavesOf : List RawValue → List RawValue
  | [] => []
  | item :: rest => item.leaves ++ leavesOf rest

end

-- A number, or a list of numbers and of such lists.
inductive Numeric : RawValue → Prop where
  | int (n : Int64) : Numeric (.int n)
  | float (x : Float) : Numeric (.float x)
  | list {items : List RawValue} (h : ∀ item ∈ items, Numeric item) : Numeric (.list items)

end RawValue

-- A text that is read as a number just as the literal has it, whatever numeric kind has room for
-- it.
inductive ReadsBack (c : Coercer) (token : String) : RawValue → Prop where
  | int {n : Int64} (hlong : c.parse token .long = some (.long n))
      (hinteger : ∀ m : Int32, m.toInt = n.toInt → c.parse token .integer = some (.integer m)) :
      ReadsBack c token (.int n)
  | float {x : Float} (hdouble : c.parse token .double = some (.double x)) :
      ReadsBack c token (.float x)

namespace Locale

theorem writesInteger_intDigits (locale : Locale) (n : Int) :
    WritesInteger locale (Decimal.intDigits n) n := by
  rw [← readInt_joinGroups, joinGroups_of_isPlain Decimal.isPlain_of_mem_intDigits]
  exact Decimal.readInt_intDigits n

theorem trim_renderInt (n : Int) :
    Text.trim (Decimal.renderInt n).toList = Decimal.intDigits n := by
  rw [Decimal.renderInt, String.toList_ofList]
  exact Text.trim_eq_self fun c hc => isBlank_of_isPlain (Decimal.isPlain_of_mem_intDigits c hc)

end Locale

theorem readsBack_renderInt (c : Coercer) (n : Int64) :
    ReadsBack c (Decimal.renderInt n.toInt) (.int n) := by
  have hwritten := c.locale.writesInteger_intDigits n.toInt
  rw [← Locale.trim_renderInt] at hwritten
  constructor
  · exact Coercer.parse_long_eq_some_iff.mpr ⟨n, hwritten, rfl⟩
  · intro m hm
    rw [← hm] at hwritten ⊢
    exact Coercer.parse_integer_eq_some_iff.mpr ⟨m, hwritten, rfl⟩

theorem readsBack_renderFloat (c : Coercer) (x : Float) :
    ReadsBack c (c.locale.renderFloat x) (.float x) := by
  have hread : Decimal.readFloat (Decimal.renderFloat x).toList = some x := by
    by_cases hx : x.isNaN = true
    · have hnan : x = Float.nan := by simpa using hx
      rw [Decimal.renderFloat_of_isNaN hx, hnan]
      rfl
    · exact Decimal.readFloat_renderFloat (by simpa using hx)
  constructor
  simp [Coercer.parse, Coercer.parseDouble, Locale.normalizeNumber_renderFloat, hread]

namespace Literal

-- Lists of lists are read through in the order of their scalars.
theorem forall₂_itemTokens {R : String → RawValue → Prop}
    (h : ∀ item ∈ items, List.Forall₂ R (tokens locale false item) item.leaves) :
    List.Forall₂ R (itemTokens locale items) (RawValue.leavesOf items) := by
  induction items with
  | nil => exact .nil
  | cons item items ih =>
      rw [List.forall_mem_cons] at h
      exact List.rel_append h.1 (ih h.2)

-- A literal of numbers is turned into one text for each of them, in their order, from which that
-- number is read back as each kind that has room for it.
theorem numbers_read_back (c : Coercer) (split : Bool) (h : raw.Numeric) :
    List.Forall₂ (ReadsBack c) (canonicalize (some raw) split c.locale) raw.leaves := by
  change List.Forall₂ (ReadsBack c) (tokens c.locale split raw) raw.leaves
  induction h generalizing split with
  | int n => exact .cons (readsBack_renderInt c n) .nil
  | float x => exact .cons (readsBack_renderFloat c x) .nil
  | list _ ih => exact forall₂_itemTokens fun item hitem => ih item hitem false

theorem german_numbers_read_back :
    List.Forall₂ (ReadsBack ⟨.deDE, false⟩) ["7", "-1234,5", "NaN"]
      [.int 7, .float (-1234.5), .float (0 / 0)] := by
  have htokens : canonicalize (some (.list [.int 7, .list [.float (-1234.5), .float (0 / 0)]])) true
      .deDE = ["7", "-1234,5", "NaN"] := by decide +kernel
  have hinner : (RawValue.list [.float (-1234.5), .float (0 / 0)]).Numeric :=
    .list (by simpa using ⟨.float _, .float _⟩)
  have hnumeric : (RawValue.list [.int 7, .list [.float (-1234.5), .float (0 / 0)]]).Numeric :=
    .list (by simpa using ⟨.int 7, hinner⟩)
  have hread := numbers_read_back ⟨.deDE, false⟩ true hnumeric
  rwa [htokens] at hread

end Literal

end Sieve
