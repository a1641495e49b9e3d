import Sieve.Proofs.Json.Value
import Sieve.Rule.RawValue

-- What a JSON value is read as, and that what is kept of it is written as a value that the same is
-- kept of.
namespace Sieve.RawValue

open Json (Settled)

variable {depth : Nat} {json : Json}

theorem readItems_eq_map (items : List Json) : readItems items = items.map read := by
  induction items with
  | nil => rfl
  | cons item items ih => rw [readItems, ih, List.map_cons]

theorem toJsonItems_eq_map (items : List RawValue) : toJsonItems items = items.map toJson := by
  induction items with
  | nil => rfl
  | cons item items ih => rw [toJsonItems, ih, List.map_cons]

-- A number is an integer if it has a sign in 64 bits, and else a double.
theorem read_number (n : Json.Number) : read (.number n) = ofNumber n := by
  unfold ofNumber
  cases hn : n.int64? <;> simp [read, firstFitting, asBool?, asInt?, asFloat?, hn]

-- What is kept of a value is written nested so deep at most, with sound numbers and ordered
-- members, and it is read as it was.
structure Kept (depth : Nat) (value : RawValue) : Prop where
  settled : Settled depth value.toJson
  read_eq : read value.toJson = value

theorem kept_int (depth : Nat) (n : Int64) : Kept depth (int n) where
  settled := by
    have hlow := n.le_toInt
    have hhigh := n.toInt_lt
    refine .number depth ⟨?_, ?_⟩ <;> omega
  read_eq := by
    have hlow := n.le_toInt
    have hhigh := n.toInt_lt
    have hword : (Json.Number.integer n.toInt).int64? = some n := by
      rw [Json.Number.int64?, if_pos (by omega), Int64.ofInt_toInt]
    rw [toJson, read_number, ofNumber, hword]

theorem kept_float (depth : Nat) {x : Float} (h : x.isFinite = true) : Kept depth (float x) where
  settled := by
    rw [toJson, if_pos h]
    exact .number depth h
  read_eq := by
    rw [toJson, if_pos h, read_number]
    rfl

theorem kept_read (h : Settled depth json) : Kept depth (read json) := by
  induction h with
  | null depth => exact ⟨.null depth, rfl⟩
  | bool depth b => exact ⟨.bool depth b, rfl⟩
  | string depth s => exact ⟨.string depth s, rfl⟩
  | @number depth n hsound =>
      rw [read_number, ofNumber]
      cases n.int64? with
      | some i => exact kept_int depth i
      | none => exact kept_float depth hsound.isFinite_toFloat
  | @array depth items _ ih =>
      have hread : read (.array items) = list (items.map read) := by
        rw [read, readItems_eq_map]
        rfl
      have hjson : toJson (list (items.map read)) = .array (items.map fun item => (read item).toJson) := by
        rw [toJson, toJsonItems_eq_map, List.map_map]
        rfl
      rw [hread]
      constructor
      · rw [hjson]
        refine .array fun item hitem => ?_
        obtain ⟨given, hgiven, rfl⟩ := List.mem_map.mp hitem
        exact (ih given hgiven).settled
      · rw [hjson, read, readItems_eq_map, List.map_map]
        have hitems : (items.map (read ∘ fun item => (read item).toJson)) = items.map read :=
          List.map_congr_left fun item hitem => (ih item hitem).read_eq
        rw [hitems]
        rfl
  | object hordered h _ => exact ⟨.object hordered h, rfl⟩

-- Nothing but null is written as null.
theorem toJson_read_ne_null (h : Settled depth json) (hjson : json ≠ .null) :
    (read json).toJson ≠ .null := by
  cases h with
  | null => exact absurd rfl hjson
  | bool b => rintro ⟨⟩
  | string s => rintro ⟨⟩
  | @number _ n hsound =>
      rw [read_number, ofNumber]
      cases n.int64? with
      | some i => rintro ⟨⟩
      | none =>
          dsimp only
          rw [toJson, if_pos hsound.isFinite_toFloat]
          rintro ⟨⟩
  | array _ => rintro ⟨⟩
  | object _ _ => rintro ⟨⟩

-- What a JSON value says as a literal. A number with a sign in 64 bits is an integer, one beyond them
-- the nearest double. Null and objects have no meaning as a scalar or a list and stay as they are.
inductive Says : Json → RawValue → Prop where
  | bool (b : Bool) : Says (.bool b) (.bool b)
  | int (n : Int64) : Says (.number (.integer n.toInt)) (.int n)
  | beyond {n : Int} (h : n < -9223372036854775808 ∨ 9223372036854775807 < n) :
      Says (.number (.integer n)) (.float (Float.ofInt n))
  | double (x : Float) : Says (.number (.double x)) (.float x)
  | text (s : String) : Says (.string s) (.text s)
  | null : Says .null (.other .null)
  | object (members : List (String × Json)) : Says (.object members) (.other (.object members))
  | nil : Says (.array []) (.list [])
  | cons {item : Json} {items : List Json} {value : RawValue} {values : List RawValue}
      (hitem : Says item value) (hitems : Says (.array items) (.list values)) :
      Says (.array (item :: items)) (.list (value :: values))

theorem ofJsonItems_eq_map (items : List Json) : ofJsonItems items = items.map ofJson := by
  induction items with
  | nil => rfl
  | cons item items ih => rw [ofJsonItems, ih, List.map_cons]

theorem says_number (n : Json.Number) : Says (.number n) (ofNumber n) := by
  cases n with
  | double x => exact .double x
  | integer n =>
      by_cases h : -9223372036854775808 ≤ n ∧ n ≤ 9223372036854775807
      · have hsigned : (Int64.ofInt n).toInt = n := Int64.toInt_ofInt_of_le h.1 (by omega)
        rw [ofNumber, Json.Number.int64?, if_pos h]
        conv in Json.Number.integer n => rw [← hsigned]
        exact .int _
      · rw [ofNumber, Json.Number.int64?, if_neg h]
        exact .beyond (by omega)

theorem Says.array {items : List Json} {f : Json → RawValue} (h : ∀ item ∈ items, Says item (f item)) :
    Says (.array items) (.list (items.map f)) := by
  induction items with
  | nil => exact .nil
  | cons item items ih =>
      rw [List.forall_mem_cons] at h
      exact .cons h.1 (ih h.2)

theorem says_ofJson (json : Json) : Says json (ofJson json) := by
  induction json using Json.valueInduction with
  | null => exact .null
  | bool b => exact .bool b
  | number n => exact says_number n
  | string s => exact .text s
  | object members _ => exact .object members
  | array items ih =>
      rw [ofJson, ofJsonItems_eq_map]
      exact .array ih

theorem Says.eq_ofJson {json : Json} {value : RawValue} (h : Says json value) :
    value = ofJson json := by
  induction h with
  | int n =>
      have hlow := n.le_toInt
      have hhigh := n.toInt_lt
      rw [ofJson, ofNumber, Json.Number.int64?, if_pos (by omega), Int64.ofInt_toInt]
  | beyond h =>
      rw [ofJson, ofNumber, Json.Number.int64?, if_neg (by omega)]
      rfl
  | cons hitem hitems ihitem ihitems =>
      rw [ofJson] at ihitems
      rw [ofJson, ofJsonItems, ihitem, RawValue.list.inj ihitems]
  | _ => rfl

-- Trying one form after the other comes to the form that a value has.
theorem read_eq_ofJson (json : Json) : read json = ofJson json := by
  induction json using Json.valueInduction with
  | number n => exact read_number n
  | array items ih =>
      rw [ofJson, ofJsonItems_eq_map, ← List.map_congr_left ih, ← readItems_eq_map]
      rfl
  | _ => rfl

theorem readings_agree (json : Json) :
    ofJson json = read json ∧ ∀ value, read json = value ↔ Says json value := by
  rw [read_eq_ofJson]
  refine ⟨rfl, fun value => ⟨?_, fun h => h.eq_ofJson.symm⟩⟩
  rintro rfl
  exact says_ofJson json

end Sieve.RawValue
