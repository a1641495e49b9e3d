import Sieve.Coercer
import Sieve.Proofs.Decimal.Reading
import Sieve.Proofs.Text.Blank
import Sieve.Proofs.Text.LowerCase

-- Numbers as a locale writes them, brought back to their plain form.
namespace Sieve

open Decimal (isDigit Written Body signChars)

variable {locale : Locale} {cs whole fraction : List Char} {x : Float}

namespace Locale

-- The characters of a number besides the point.
def isPlain (c : Char) : Bool :=
  isDigit c || ['-', 'i', 'n', 'f', 'N', 'a'].contains c

theorem isPlain_of_isDigit {c : Char} (h : isDigit c = true) : isPlain c = true := by
  rw [isPlain, h, Bool.true_or]

theorem isBlank_of_isPlain {c : Char} (h : isPlain c = true) : Text.isBlank c = false := by
  rw [isPlain, Bool.or_eq_true] at h
  rcases h with hdigit | hother
  · exact Calendar.isBlank_of_isDigit hdigit
  · have hall : ['-', 'i', 'n', 'f', 'N', 'a'].all (fun c => !Text.isBlank c) = true := by decide
    have hc := List.all_eq_true.mp hall c (List.contains_iff_mem.mp hother)
    rwa [Bool.not_eq_true'] at hc

theorem lt_of_isPlain {c : Char} (h : isPlain c = true) : c.toNat < 0x80 := by
  rw [isPlain, Bool.or_eq_true] at h
  rcases h with hdigit | hother
  · simp only [isDigit, Bool.and_eq_true, decide_eq_true_eq, Char.le_def,
      UInt32.le_iff_toNat_le] at hdigit
    have hhigh : c.toNat ≤ 57 := hdigit.2
    omega
  · have hall : ['-', 'i', 'n', 'f', 'N', 'a'].all (fun c => c.toNat < 0x80) = true := by decide
    have hc := List.all_eq_true.mp hall c (List.contains_iff_mem.mp hother)
    rwa [decide_eq_true_iff] at hc

theorem ne_decimal_of_isPlain {c : Char} (h : isPlain c = true) (locale : Locale) :
    c ≠ locale.decimal := by
  rintro rfl
  revert h
  cases locale <;> decide

theorem isGroup_of_isPlain {c : Char} (h : isPlain c = true) (locale : Locale) :
    locale.isGroup c = false := by
  by_contra hgroup
  simp only [isGroup, Bool.not_eq_false, Bool.or_eq_true, beq_iff_eq] at hgroup
  obtain (rfl | rfl) | rfl := hgroup
  · revert h
    cases locale <;> decide
  · revert h
    decide
  · revert h
    decide

theorem isBlank_decimal (locale : Locale) : Text.isBlank locale.decimal = false := by
  cases locale <;> decide

theorem joinGroups_of_isPlain (h : ∀ c ∈ cs, isPlain c = true) : locale.joinGroups cs = some cs := by
  have hsplit : cs.splitOnP locale.isGroup = [cs] :=
    List.splitOnP_eq_singleton fun c hc => isGroup_of_isPlain (h c hc) locale
  rw [joinGroups, hsplit]

theorem splitDecimal_of_notMem (h : locale.decimal ∉ cs) : locale.splitDecimal cs = (cs, none) := by
  have hdrop : cs.dropWhile (· != locale.decimal) = [] :=
    List.dropWhile_eq_nil_iff.mpr fun c hc => bne_iff_ne.mpr fun heq => h (heq ▸ hc)
  rw [splitDecimal, hdrop]

-- Where nothing is to be put differently, a number stays as it is.
theorem normalizeNumber_of_isPlain (h : ∀ c ∈ cs, isPlain c = true) :
    locale.normalizeNumber cs = some cs := by
  have hsplit : locale.splitDecimal cs = (cs, none) :=
    splitDecimal_of_notMem fun hmem => ne_decimal_of_isPlain (h _ hmem) locale rfl
  rw [normalizeNumber, Text.trim_eq_self fun c hc => isBlank_of_isPlain (h c hc), hsplit]
  simp [joinGroups_of_isPlain h]

-- The decimal separator of a locale becomes a point.
theorem normalizeNumber_decimal (hwhole : ∀ c ∈ whole, isPlain c = true)
    (hfraction : ∀ c ∈ fraction, isPlain c = true) :
    locale.normalizeNumber (whole ++ locale.decimal :: fraction) =
      some (whole ++ '.' :: fraction) := by
  have hbefore : ∀ c ∈ whole, (c != locale.decimal) = true :=
    fun c hc => bne_iff_ne.mpr (ne_decimal_of_isPlain (hwhole c hc) locale)
  have hsplit : locale.splitDecimal (whole ++ locale.decimal :: fraction) =
      (whole, some fraction) := by
    simp [splitDecimal, List.dropWhile_append_of_pos hbefore, List.takeWhile_append_of_pos hbefore]
  have hgroup : fraction.any locale.isGroup = false := by
    rw [List.any_eq_false]
    exact fun c hc => isGroup_of_isPlain (hfraction c hc) locale ▸ Bool.false_ne_true
  have htrim : ∀ c ∈ whole ++ locale.decimal :: fraction, Text.isBlank c = false := by
    intro c hc
    rcases List.mem_append.mp hc with hc | hc
    · exact isBlank_of_isPlain (hwhole c hc)
    · rcases List.mem_cons.mp hc with rfl | hc
      · exact isBlank_decimal locale
      · exact isBlank_of_isPlain (hfraction c hc)
  rw [normalizeNumber, Text.trim_eq_self htrim, hsplit]
  simp [joinGroups_of_isPlain hwhole, hgroup]

end Locale

end Sieve

namespace Sieve.Decimal

open Sieve.Locale (isPlain isPlain_of_isDigit)

-- The text of a double has a point or none, and no other character that a locale puts differently.
theorem renderFloat_form (x : Float) :
    (∀ c ∈ (renderFloat x).toList, isPlain c = true) ∨
      ∃ whole fraction, (renderFloat x).toList = whole ++ '.' :: fraction ∧
        (∀ c ∈ whole, isPlain c = true) ∧ ∀ c ∈ fraction, isPlain c = true := by
  by_cases hx : x.isNaN = false
  · obtain ⟨body, y, htext, hbody, -⟩ := toList_renderFloat hx
    have hsign : ∀ c ∈ signChars x, isPlain c = true := by
      rw [signChars]
      split
      · exact List.forall_mem_singleton.mpr rfl
      · exact List.forall_mem_nil _
    have hplain {before digits : List Char} (hbefore : ∀ c ∈ before, isPlain c = true)
        (hdigits : ∀ c ∈ digits, isDigit c = true) : ∀ c ∈ before ++ digits, isPlain c = true :=
      fun c hc => (List.mem_append.mp hc).elim (hbefore c) fun hc =>
        isPlain_of_isDigit (hdigits c hc)
    rw [htext]
    cases hbody with
    | infinite =>
        refine .inl fun c hc => (List.mem_append.mp hc).elim (hsign c) ?_
        have hall : ['i', 'n', 'f'].all isPlain = true := by decide
        exact List.all_eq_true.mp hall c
    | written h =>
        cases h with
        | whole hne hdigits => exact .inl (hplain hsign hdigits)
        | @point whole fraction hne hwhole hfraction =>
            refine .inr ⟨signChars x ++ whole, fraction, ?_, hplain hsign hwhole, ?_⟩
            · rw [List.append_assoc]
            · exact fun c hc => isPlain_of_isDigit (hfraction c hc)
  · rw [renderFloat_of_isNaN (Bool.not_eq_false _ ▸ hx)]
    have hall : "NaN".toList.all isPlain = true := by decide
    exact .inl (List.all_eq_true.mp hall)

end Sieve.Decimal

namespace Sieve.Locale

open Sieve.Decimal (renderFloat_form)

variable {locale : Locale} {x : Float}

theorem map_decimal_of_isPlain {cs : List Char} (h : ∀ c ∈ cs, isPlain c = true) :
    cs.map (fun c => if c = '.' then locale.decimal else c) = cs := by
  have hpoint (c : Char) (hc : c ∈ cs) : c ≠ '.' := ne_decimal_of_isPlain (h c hc) .invariant
  exact (List.map_congr_left fun c hc => if_neg (hpoint c hc)).trans (List.map_id cs)

-- A locale reads the text that it gives a double as the plain text of that.
theorem normalizeNumber_renderFloat (locale : Locale) (x : Float) :
    locale.normalizeNumber (locale.renderFloat x).toList =
      some (Decimal.renderFloat x).toList := by
  rw [renderFloat, String.toList_ofList]
  rcases renderFloat_form x with hplain | ⟨whole, fraction, htext, hwhole, hfraction⟩
  · rw [map_decimal_of_isPlain hplain, normalizeNumber_of_isPlain hplain]
  · rw [htext, List.map_append, List.map_cons, map_decimal_of_isPlain hwhole,
      map_decimal_of_isPlain hfraction, if_pos rfl, normalizeNumber_decimal hwhole hfraction]

-- That text is the plain one where the locale writes a point, and where there is none.
theorem renderFloat_eq (h : locale.decimal = '.' ∨ '.' ∉ (Decimal.renderFloat x).toList) :
    locale.renderFloat x = Decimal.renderFloat x := by
  have hmap : (Decimal.renderFloat x).toList.map (fun c => if c = '.' then locale.decimal else c) =
      (Decimal.renderFloat x).toList := by
    refine (List.map_congr_left fun c hc => ?_).trans (List.map_id _)
    split
    · rename_i hpoint
      rcases h with hdecimal | hnone
      · rw [hdecimal, hpoint]
        rfl
      · exact absurd (hpoint ▸ hc) hnone
    · rfl
  rw [renderFloat, hmap, String.ofList_toList]

theorem decimal_mem_renderFloat (h : '.' ∈ (Decimal.renderFloat x).toList) :
    locale.decimal ∈ (locale.renderFloat x).toList := by
  rw [renderFloat, String.toList_ofList]
  exact List.mem_map.mpr ⟨'.', h, if_pos rfl⟩

theorem decimal_eq_comma (h : locale.decimal ≠ '.') : locale.decimal = ',' := by
  have heither : locale.decimal = '.' ∨ locale.decimal = ',' := by
    cases locale <;> decide
  exact heither.resolve_left h

-- With a comma for the point the text of a double is another text, also in lower case.
theorem foldCase_renderFloat_ne (hdecimal : locale.decimal ≠ '.')
    (hpoint : '.' ∈ (Decimal.renderFloat x).toList) (fold : Bool) :
    (if fold then Text.lower (Decimal.renderFloat x) else Decimal.renderFloat x) ≠
      if fold then Text.lower (locale.renderFloat x) else locale.renderFloat x := by
  obtain ⟨whole, fraction, htext, hwhole, hfraction⟩ :=
    (Decimal.renderFloat_form x).resolve_left fun hplain =>
      ne_decimal_of_isPlain (hplain '.' hpoint) .invariant rfl
  have hcomma : (locale.renderFloat x).toList = whole ++ ',' :: fraction := by
    rw [renderFloat, String.toList_ofList, htext, List.map_append, List.map_cons,
      map_decimal_of_isPlain hwhole, map_decimal_of_isPlain hfraction, if_pos rfl,
      decimal_eq_comma hdecimal]
  have hascii {c : Char} (hc : c.toNat < 0x80) : ∀ d ∈ whole ++ c :: fraction, d.toNat < 0x80 := by
    intro d hd
    rcases List.mem_append.mp hd with hd | hd
    · exact lt_of_isPlain (hwhole d hd)
    · rcases List.mem_cons.mp hd with rfl | hd
      · exact hc
      · exact lt_of_isPlain (hfraction d hd)
  intro heq
  cases fold with
  | false =>
      have hlist := congrArg String.toList heq
      simp only [Bool.false_eq_true, if_false, htext, hcomma] at hlist
      exact absurd (List.cons.inj (List.append_cancel_left hlist)).1 (by decide)
  | true =>
      have hlist := congrArg String.toList heq
      simp only [if_true, Text.lower, String.toList_ofList, htext, hcomma] at hlist
      rw [Text.lowerAfter_of_ascii (hascii (by decide)), Text.lowerAfter_of_ascii (hascii (by decide)),
        List.map_append, List.map_append] at hlist
      exact absurd (List.cons.inj (List.append_cancel_left hlist)).1 (by decide)

end Sieve.Locale
