import Sieve.Proofs.Json.Fields
import Sieve.Proofs.Json.Text
import Sieve.Proofs.Rule.RawValue
import Sieve.Proofs.Rule.Tree
import Sieve.Rule.Format

-- Rules as JSON texts: a rule that was read and is written again is read as the same rule.
namespace Sieve.Rule

open Json (Source Settled fileMembers?_member filedAs lookup_filedAs member)

variable {depth : Nat} {rule : Rule}

theorem toJsonItems_eq_map (rules : List Rule) : toJsonItems rules = rules.map toJson := by
  induction rules with
  | nil => rfl
  | cons rule rules ih => rw [toJsonItems, ih, List.map_cons]

-- The list of children, which is left out if there are none.
def childrenJson? : List Rule → Option Json
  | [] => none
  | rules => some (.array (rules.map toJson))

theorem toJson_eq (rule : Rule) :
    rule.toJson = .object (
      member "condition" (rule.condition.map fun c => .string c.name) ++
      (member "field" (rule.field.map .string) ++
      (member "operator" (rule.operator.map .string) ++
      (member "type" (rule.type.map .string) ++
      (member "value" (rule.value.map RawValue.toJson) ++
      (member "rules" (childrenJson? rule.rules) ++ [])))))) := by
  obtain ⟨condition, field, operator, type, value, rules⟩ := rule
  cases rules <;>
    simp [toJson, member, childrenJson?, toJsonItems_eq_map, List.append_assoc, Option.map_map,
      Function.comp_def]

-- The numbers of a written rule are those of its values.
theorem mem_numbers_toJson {n : Json.Number} :
    n ∈ rule.toJson.numbers ↔ (∃ value ∈ rule.value, n ∈ value.toJson.numbers) ∨
      ∃ child ∈ rule.rules, n ∈ child.toJson.numbers := by
  have htext (slot : Option String) (name : String) :
      n ∉ Json.memberNumbers (member name (slot.map .string)) := by
    cases slot <;> simp [member, Json.memberNumbers, Json.numbers]
  have hname : n ∉ Json.memberNumbers
      (member "condition" (rule.condition.map fun c => .string c.name)) := by
    cases rule.condition <;> simp [member, Json.memberNumbers, Json.numbers]
  have hlist : (∃ json ∈ childrenJson? rule.rules, n ∈ json.numbers) ↔
      ∃ child ∈ rule.rules, n ∈ child.toJson.numbers := by
    cases rule.rules with
    | nil => simp [childrenJson?]
    | cons child rules => simp [childrenJson?, Json.numbers, Json.mem_itemNumbers]
  rw [toJson_eq, Json.numbers]
  simp only [Json.memberNumbers_append, List.mem_append, htext, hname, false_or,
    Json.mem_memberNumbers_member, hlist]
  simp [Json.memberNumbers]

-- The slots of a written rule are found under their places.
theorem fields?_toJson (rule : Rule) :
    ∃ fields, rule.toJson.source.fields? fieldNames = some fields ∧
      fields.lookup 0 = rule.condition.map (fun c => .string (some c.name)) ∧
      fields.lookup 1 = rule.field.map (fun s => .string (some s)) ∧
      fields.lookup 2 = rule.operator.map (fun s => .string (some s)) ∧
      fields.lookup 3 = rule.type.map (fun s => .string (some s)) ∧
      fields.lookup 4 = rule.value.map (fun v => v.toJson.source) ∧
      fields.lookup 5 = (childrenJson? rule.rules).map Json.source := by
  rw [toJson_eq, Json.source, Json.Source.fields?]
  refine ⟨filedAs 5 (childrenJson? rule.rules) ++ (filedAs 4 (rule.value.map RawValue.toJson) ++
    (filedAs 3 (rule.type.map .string) ++ (filedAs 2 (rule.operator.map .string) ++
      (filedAs 1 (rule.field.map .string) ++
        (filedAs 0 (rule.condition.map fun c => .string c.name) ++ []))))), ?_, ?_⟩
  · rw [@fileMembers?_member fieldNames _ _ 0 (by decide) rfl,
      @fileMembers?_member fieldNames _ _ 1 (by decide) (by simp [lookup_filedAs, -List.append_nil]),
      @fileMembers?_member fieldNames _ _ 2 (by decide) (by simp [lookup_filedAs, -List.append_nil]),
      @fileMembers?_member fieldNames _ _ 3 (by decide) (by simp [lookup_filedAs, -List.append_nil]),
      @fileMembers?_member fieldNames _ _ 4 (by decide) (by simp [lookup_filedAs, -List.append_nil]),
      @fileMembers?_member fieldNames _ _ 5 (by decide) (by simp [lookup_filedAs, -List.append_nil])]
    rfl
  · simp [lookup_filedAs, Option.map_map, Function.comp_def, Json.source, -List.append_nil]

-- A slot that is filled, and not with null, is read as what its source says.
theorem optional?_map {α β : Type} {read : Source → Option β} {source : α → Source} {value : α → β}
    {slot : Option α} (h : ∀ a ∈ slot, source a ≠ .null ∧ read (source a) = some (value a)) :
    optional? read (slot.map source) = some (slot.map value) := by
  cases slot with
  | none => rfl
  | some a =>
      obtain ⟨hnull, hread⟩ := h a rfl
      rw [Option.map_some, optional?, hread]
      · rfl
      · exact hnull

theorem of_optional? {β : Type} {read : Source → Option β} {slot : Option Source} {value : Option β}
    (h : optional? read slot = some value) {b : β} (hb : b ∈ value) :
    ∃ source, slot = some source ∧ source ≠ .null ∧ read source = some b := by
  unfold optional? at h
  split at h
  · cases h
    cases hb
  · cases h
    cases hb
  · rename_i source hnull
    obtain ⟨a, ha, rfl⟩ := Option.map_eq_some_iff.mp h
    obtain rfl := Option.some.inj hb
    exact ⟨source, rfl, hnull, ha⟩

-- A value that was read into a slot: what is written for it is read as it was, and not left out.
def KeptValue (depth : Nat) (rule : Rule) : Prop :=
  ∀ value ∈ rule.value, value.Kept depth ∧ value.toJson ≠ .null

-- A tree that was read: its values are, and neither they nor its lists are nested too deep.
inductive Kept : Nat → Rule → Prop where
  | childless {depth : Nat} {rule : Rule} (hvalue : KeptValue depth rule) (hrules : rule.rules = []) :
      Kept (depth + 1) rule
  | fork {depth : Nat} {rule : Rule} (hvalue : KeptValue (depth + 1) rule)
      (hrules : ∀ child ∈ rule.rules, Kept depth child) : Kept (depth + 2) rule

theorem ne_null_of_value? {source : Source} (hnull : source ≠ .null) {json : Json}
    (h : source.value? depth = some json) : json ≠ .null := by
  rintro rfl
  cases source with
  | null => exact hnull rfl
  | bool b => cases h
  | number n =>
      obtain ⟨_, _, hn⟩ := Option.map_eq_some_iff.mp h
      cases hn
  | string s =>
      obtain ⟨_, _, hs⟩ := Option.map_eq_some_iff.mp h
      cases hs
  | array items =>
      cases depth with
      | zero => cases h
      | succ depth =>
          obtain ⟨_, _, hitems⟩ := Option.map_eq_some_iff.mp h
          cases hitems
  | object members =>
      cases depth with
      | zero => cases h
      | succ depth =>
          obtain ⟨_, _, hmembers⟩ := Option.map_eq_some_iff.mp h
          cases hmembers

-- What the slots of a sound source give: a value that is kept, and children that `readChild` gives
-- for sound sources.
theorem of_ofSlots? {readChild : Option (Source → Option Rule)} {source : Source}
    (hsound : source.Sound) (h : ofSlots? depth readChild source = some rule) :
    KeptValue depth rule ∧ (rule.rules = [] ∨ ∃ read, ∃ items : List Source, readChild = some read ∧
      (∀ item ∈ items, Source.Sound item) ∧ items.mapM read = some rule.rules) := by
  unfold ofSlots? at h
  obtain ⟨fields, hfields, h⟩ := Option.bind_eq_some_iff.mp h
  obtain ⟨condition, -, h⟩ := Option.bind_eq_some_iff.mp h
  obtain ⟨field, -, h⟩ := Option.bind_eq_some_iff.mp h
  obtain ⟨operator, -, h⟩ := Option.bind_eq_some_iff.mp h
  obtain ⟨type, -, h⟩ := Option.bind_eq_some_iff.mp h
  obtain ⟨value, hvalue, h⟩ := Option.bind_eq_some_iff.mp h
  obtain ⟨rules, hrules, h⟩ := Option.bind_eq_some_iff.mp h
  obtain rfl := Option.some.inj h
  constructor
  · intro given hgiven
    obtain ⟨json, hjson, rfl⟩ := Option.map_eq_some_iff.mp hgiven
    obtain ⟨slot, hslot, hnull, hread⟩ := of_optional? hvalue hjson
    have hsettled := Json.settled_of_value? (hsound.lookup_fields? hfields hslot) hread
    exact ⟨RawValue.kept_read hsettled,
      RawValue.toJson_read_ne_null hsettled (ne_null_of_value? hnull hread)⟩
  · unfold children? at hrules
    split at hrules
    · left
      exact (Option.some.inj hrules).symm
    · right
      rename_i items hitems
      obtain ⟨read, hread, hmap⟩ := Option.bind_eq_some_iff.mp hrules
      have harray := hsound.lookup_fields? hfields hitems
      cases harray with
      | array _ hsounds => exact ⟨read, items, hread, hsounds, hmap⟩
    · cases hrules

-- What a sound source gives is kept.
theorem kept_of_ofSource? {source : Source} (hsound : source.Sound)
    (h : ofSource? depth source = some rule) : Kept depth rule := by
  induction depth using Nat.twoStepInduction generalizing source rule with
  | zero => cases h
  | one =>
      obtain ⟨hvalue, hrules | ⟨read, items, hread, -, -⟩⟩ := of_ofSlots? hsound h
      · exact .childless hvalue hrules
      · cases hread
  | more depth ih _ =>
      obtain ⟨hvalue, hrules | ⟨read, items, hread, hsounds, hmap⟩⟩ := of_ofSlots? hsound h
      · exact .childless hvalue hrules
      · obtain rfl := Option.some.inj hread
        refine .fork hvalue fun child hchild => ?_
        obtain ⟨item, hitem, hread⟩ := Json.exists_of_mapM hmap hchild
        exact ih (hsounds item hitem) hread

-- The slots of a written node are read as they were, once its children are.
theorem ofSlots?_toJson {readChild : Option (Source → Option Rule)} (hvalue : KeptValue depth rule)
    (hrules : children? readChild ((childrenJson? rule.rules).map Json.source) = some rule.rules) :
    ofSlots? depth readChild rule.toJson.source = some rule := by
  obtain ⟨fields, hfields, hcondition, hfield, hoperator, htype, hslot, hlist⟩ := fields?_toJson rule
  have htext (slot : Option String) :
      optional? text? (slot.map fun s => .string (some s)) = some slot := by
    cases slot <;> rfl
  have hname : optional? (Combinator.ofSource? depth)
      (rule.condition.map fun c => .string (some c.name)) = some rule.condition := by
    rcases rule.condition with _ | (_ | _) <;> rfl
  have hread : optional? (·.value? depth) (rule.value.map fun v => v.toJson.source) =
      some (rule.value.map RawValue.toJson) := by
    refine optional?_map fun value hmem => ?_
    obtain ⟨hkept, hnull⟩ := hvalue value hmem
    refine ⟨?_, hkept.settled.value?_source⟩
    cases hjson : value.toJson with
    | null => exact absurd hjson hnull
    | _ => rintro ⟨⟩
  have hkept : (rule.value.map RawValue.toJson).map RawValue.read = rule.value := by
    cases hslot : rule.value with
    | none => rfl
    | some value => exact congrArg some (hvalue value hslot).1.read_eq
  unfold ofSlots?
  rw [hfields]
  simp only [bind, Option.bind_some, hcondition, hname, hfield, hoperator, htype, htext, hslot, hread,
    hlist, hrules, hkept]
  cases rule
  rfl

-- A tree that was read and is written again is read as it was.
theorem ofSource?_toJson (h : Kept depth rule) :
    ofSource? depth rule.toJson.source = some rule := by
  induction h with
  | @childless depth rule hvalue hrules =>
      have hchildren (readChild : Option (Source → Option Rule)) :
          children? readChild ((childrenJson? rule.rules).map Json.source) = some rule.rules := by
        rw [hrules]
        rfl
      cases depth with
      | zero => exact ofSlots?_toJson hvalue (hchildren none)
      | succ depth => exact ofSlots?_toJson hvalue (hchildren (some (ofSource? depth)))
  | @fork depth rule hvalue _ ih =>
      have hchildren : ((rule.rules.map toJson).map Json.source).mapM (ofSource? depth) =
          some rule.rules := by
        rw [List.map_map]
        exact Json.mapM_map_eq_some ih
      refine ofSlots?_toJson hvalue ?_
      cases hrules : rule.rules with
      | nil => rfl
      | cons child rules =>
          rw [hrules, ← Json.sources_eq_map] at hchildren
          exact hchildren

-- The numbers that are written for a tree that was read are sound.
theorem Kept.sound (h : Kept depth rule) : ∀ n ∈ rule.toJson.numbers, n.Sound := by
  have hvalues {depth : Nat} {rule : Rule} (hvalue : KeptValue depth rule)
      (hrules : ∀ child ∈ rule.rules, ∀ n ∈ child.toJson.numbers, n.Sound) :
      ∀ n ∈ rule.toJson.numbers, n.Sound := by
    intro n hn
    rcases mem_numbers_toJson.mp hn with ⟨value, hmem, hnumber⟩ | ⟨child, hchild, hnumber⟩
    · exact (hvalue value hmem).1.settled.sound n hnumber
    · exact hrules child hchild n hnumber
  induction h with
  | childless hvalue hrules => exact hvalues hvalue (by simp [hrules])
  | fork hvalue _ ih => exact hvalues hvalue ih

-- A rule that was read from a text and is written again is read as the same rule, if the doubles in
-- it are read as they were printed.
theorem read_render_of_read {text : String} (h : read text = some rule)
    (hdoubles : ∀ x, .double x ∈ rule.toJson.numbers → x.isFinite = true → Json.ReadsBack x) :
    read rule.render = some rule := by
  obtain ⟨source, hsource, hrule⟩ := Option.bind_eq_some_iff.mp h
  have hkept := kept_of_ofSource? (Json.Source.sound_of_read hsource) hrule
  have hreads : ∀ n ∈ rule.toJson.numbers, n.Reads := by
    intro n hn
    have hsound := hkept.sound n hn
    cases n with
    | integer n => exact Json.Number.reads_integer hsound
    | double x => exact (hdoubles x hn hsound).reads
  rw [read, render, Json.Source.read_render hreads]
  exact ofSource?_toJson hkept

-- An unknown member, a condition in capitals, a slot that is null, and a list of a double, a null,
-- an integer too large for a sign, and an object.
private def restockText : String :=
  "\x7b\"x\":0,\"condition\":\"OR\",\"rules\":[\x7b\"type\":null," ++
    "\"value\":[2.5,null,18446744073709551615,\x7b\"a\":-1\x7d]\x7d]\x7d"

private theorem isSome_read_restockText : (read restockText).isSome = true := by
  decide +kernel

private def restock : Rule :=
  (read restockText).get isSome_read_restockText

theorem restock_read_render :
    read restockText = some restock ∧
    restock.render = "\x7b\"condition\":\"or\",\"rules\":[\x7b" ++
      "\"value\":[2.5,null,1.8446744073709552e+19,\x7b\"a\":-1\x7d]\x7d]\x7d" ∧
    (∀ x, .double x ∈ restock.toJson.numbers → x.isFinite = true → Json.ReadsBack x) ∧
    read restock.render = some restock := by
  have hread : read restockText = some restock := (Option.some_get _).symm
  have hnumbers : restock.toJson.numbers =
      [.double 2.5, .double 18446744073709551615, .integer (-1)] := by
    decide +kernel
  have hdoubles : ∀ x, .double x ∈ restock.toJson.numbers → x.isFinite = true → Json.ReadsBack x := by
    intro x hx _
    simp only [hnumbers, List.mem_cons, Json.Number.double.injEq, reduceCtorEq, List.not_mem_nil,
      or_false] at hx
    rcases hx with rfl | rfl
    · decide +kernel
    · decide +kernel
  exact ⟨hread, by decide +kernel, hdoubles, read_render_of_read hread hdoubles⟩

end Sieve.Rule
