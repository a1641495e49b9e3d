import Mathlib
import Sieve.Coercer

-- A text with a comma in it is no truth value, no date and no identifier.
namespace Sieve

variable {c : Char} {cs rest : List Char}

theorem Text.mem_dropWhile {p : Char → Bool} (hc : p c = false) (h : c ∈ cs) :
    c ∈ cs.dropWhile p := by
  rw [← List.takeWhile_append_dropWhile (p := p) (l := cs)] at h
  refine (List.mem_append.mp h).resolve_left fun hbefore => ?_
  have hp := List.mem_takeWhile_imp hbefore
  rw [hc] at hp
  cases hp

theorem Text.mem_trim (hc : isBlank c = false) (h : c ∈ cs) : c ∈ trim cs := by
  have hend := mem_dropWhile hc (List.mem_reverse.mpr (mem_dropWhile hc h))
  exact List.mem_reverse.mpr hend

namespace Calendar

variable {width n : Nat} {f f' : Fields}

-- What is left of a text stays where a part that was taken is made into something else.
theorem exists_of_map {α β : Type} {taken : Option (α × List Char)}
    {f : α × List Char → β × List Char} {b : β} (h : taken.map f = some (b, rest))
    (hf : ∀ part, (f part).2 = part.2) : ∃ a, taken = some (a, rest) := by
  obtain ⟨⟨a, others⟩, htaken, heq⟩ := Option.map_eq_some_iff.mp h
  obtain rfl : others = rest := (hf (a, others)).symm.trans (congrArg Prod.snd heq)
  exact ⟨a, htaken⟩

theorem mem_of_takeNumber (hc : Decimal.isDigit c = false)
    (h : takeNumber width cs = some (n, rest)) (hmem : c ∈ cs) : c ∈ rest := by
  unfold takeNumber at h
  dsimp only at h
  split at h
  · cases h
  · obtain ⟨-, rfl⟩ := Prod.mk.inj (Option.some.inj h)
    obtain ⟨others, hothers⟩ : (cs.take width).takeWhile Decimal.isDigit <+: cs :=
      (List.takeWhile_prefix _).trans (List.take_prefix _ _)
    generalize hdigits : (cs.take width).takeWhile Decimal.isDigit = digits at hothers ⊢
    subst hothers
    rw [List.drop_left]
    refine (List.mem_append.mp hmem).resolve_left fun hdigit => ?_
    rw [← hdigits] at hdigit
    have hisDigit := List.mem_takeWhile_imp hdigit
    rw [hc] at hisDigit
    cases hisDigit

theorem mem_of_takeWithin {low high : Nat} (h : takeWithin low high cs = some (n, rest))
    (hmem : ',' ∈ cs) : ',' ∈ rest := by
  unfold takeWithin at h
  split at h
  · rename_i htake
    split at h
    · obtain ⟨-, rfl⟩ := Prod.mk.inj (Option.some.inj h)
      exact mem_of_takeNumber (by decide) htake (Text.mem_dropWhile (by decide) hmem)
    · cases h
  · cases h

theorem mem_of_takeYear {year : Int} (h : takeYear cs = some (year, rest)) (hmem : ',' ∈ cs) :
    ',' ∈ rest := by
  unfold takeYear at h
  split at h
  · obtain ⟨n, htake⟩ := exists_of_map h fun _ => rfl
    exact mem_of_takeNumber (by decide) htake ((List.mem_cons.mp hmem).resolve_left (by decide))
  · obtain ⟨n, htake⟩ := exists_of_map h fun _ => rfl
    exact mem_of_takeNumber (by decide) htake ((List.mem_cons.mp hmem).resolve_left (by decide))
  · obtain ⟨n, htake⟩ := exists_of_map h fun _ => rfl
    exact mem_of_takeNumber (by decide) htake hmem

theorem mem_of_takeFraction (h : takeFraction cs = some (n, rest)) (hmem : ',' ∈ cs) :
    ',' ∈ rest := by
  unfold takeFraction at h
  split at h
  · dsimp only at h
    split at h
    · cases h
    · obtain ⟨-, rfl⟩ := Prod.mk.inj (Option.some.inj h)
      exact Text.mem_dropWhile (by decide) ((List.mem_cons.mp hmem).resolve_left (by decide))
  · obtain ⟨-, rfl⟩ := Prod.mk.inj (Option.some.inj h)
    exact hmem

-- An item of a pattern that is not a comma itself leaves commas behind it.
theorem PatternItem.mem_of_take {item : PatternItem} (hitem : item ≠ .literal ',')
    (h : item.take f cs = some (f', rest)) (hmem : ',' ∈ cs) : ',' ∈ rest := by
  cases item with
  | blanks =>
      obtain ⟨-, rfl⟩ := Prod.mk.inj (Option.some.inj h)
      exact Text.mem_dropWhile (by decide) hmem
  | literal expected =>
      cases cs with
      | nil => cases h
      | cons first others =>
          rw [take] at h
          split at h
          · rename_i hfirst
            obtain ⟨-, rfl⟩ := Prod.mk.inj (Option.some.inj h)
            refine (List.mem_cons.mp hmem).resolve_left fun hcomma => hitem ?_
            rw [hcomma, hfirst]
          · cases h
  | year =>
      obtain ⟨n, htake⟩ := exists_of_map h fun _ => rfl
      exact mem_of_takeYear htake (Text.mem_dropWhile (by decide) hmem)
  | fraction =>
      obtain ⟨n, htake⟩ := exists_of_map h fun _ => rfl
      exact mem_of_takeFraction htake hmem
  | month | day | hour | minute | second =>
      obtain ⟨n, htake⟩ := exists_of_map h fun _ => rfl
      exact mem_of_takeWithin htake hmem

theorem Pattern.read_eq_none {p : Pattern} (hp : .literal ',' ∉ p) (hmem : ',' ∈ cs) (f : Fields) :
    Pattern.read p f cs = none := by
  induction p generalizing f cs with
  | nil =>
      rw [Pattern.read, if_neg]
      rintro hempty
      rw [List.isEmpty_iff.mp hempty] at hmem
      cases hmem
  | cons item items ih =>
      rw [List.mem_cons, not_or] at hp
      rw [Pattern.read, Option.bind_eq_none_iff]
      rintro ⟨f', others⟩ htake
      exact ih hp.2 (PatternItem.mem_of_take (Ne.symm hp.1) htake hmem) f'

-- What is read on behind some digits fails if it fails on every text with a comma.
theorem bind_takeDigits_eq_none {α : Type} {next : Nat × List Char → Option α} (hmem : ',' ∈ cs)
    (hnext : ∀ n rest, ',' ∈ rest → next (n, rest) = none) : takeDigits width cs >>= next = none := by
  unfold takeDigits
  dsimp only
  split
  · rename_i hdigits
    refine hnext _ _ ?_
    rw [← List.take_append_drop width cs] at hmem
    refine (List.mem_append.mp hmem).resolve_left fun hdigit => ?_
    exact absurd (List.all_eq_true.mp hdigits.2 _ hdigit) (by decide)
  · rfl

theorem bind_takeOneOf_eq_none {α : Type} {allowed : List Char} {next : List Char → Option α}
    (hallowed : ',' ∉ allowed) (hmem : ',' ∈ cs) (hnext : ∀ rest, ',' ∈ rest → next rest = none) :
    takeOneOf allowed cs >>= next = none := by
  unfold takeOneOf
  split
  · rename_i first rest
    split
    · rename_i hfirst
      refine hnext _ ((List.mem_cons.mp hmem).resolve_left fun hcomma => hallowed ?_)
      rw [hcomma]
      exact List.contains_iff_mem.mp hfirst
    · rfl
  · rfl

theorem readOffset_eq_none (hmem : ',' ∈ cs) : readOffset cs = none := by
  unfold readOffset
  split
  · exact absurd hmem (by decide)
  · exact absurd hmem (by decide)
  · rename_i sign rest _ _
    rcases List.mem_cons.mp hmem with rfl | hmem
    · refine Option.bind_eq_none_iff.mpr fun ⟨hours, rest⟩ _ => ?_
      refine Option.bind_eq_none_iff.mpr fun rest _ => ?_
      refine Option.bind_eq_none_iff.mpr fun ⟨minutes, rest⟩ _ => ?_
      dsimp only
      split <;> rfl
    · refine bind_takeDigits_eq_none hmem fun hours rest hmem => ?_
      refine bind_takeOneOf_eq_none (by decide) hmem fun rest hmem => ?_
      refine bind_takeDigits_eq_none hmem fun minutes rest hmem => ?_
      have hrest : rest.isEmpty = false := List.isEmpty_eq_false_iff.mpr (List.ne_nil_of_mem hmem)
      simp [hrest]
  · rfl

theorem OffsetDateTime.read_eq_none (hmem : ',' ∈ cs) : OffsetDateTime.read cs = none := by
  unfold read
  refine bind_takeDigits_eq_none hmem fun year cs hmem => ?_
  refine bind_takeOneOf_eq_none (by decide) hmem fun cs hmem => ?_
  refine bind_takeDigits_eq_none hmem fun month cs hmem => ?_
  refine bind_takeOneOf_eq_none (by decide) hmem fun cs hmem => ?_
  refine bind_takeDigits_eq_none hmem fun day cs hmem => ?_
  refine bind_takeOneOf_eq_none (by decide) hmem fun cs hmem => ?_
  refine bind_takeDigits_eq_none hmem fun hour cs hmem => ?_
  refine bind_takeOneOf_eq_none (by decide) hmem fun cs hmem => ?_
  refine bind_takeDigits_eq_none hmem fun minute cs hmem => ?_
  refine bind_takeOneOf_eq_none (by decide) hmem fun cs hmem => ?_
  refine bind_takeDigits_eq_none hmem fun second cs hmem => ?_
  dsimp only
  refine Option.bind_eq_none_iff.mpr fun ⟨nano, cs'⟩ htake => ?_
  dsimp only
  rw [readOffset_eq_none (mem_of_takeFraction htake hmem)]
  rfl

end Calendar

namespace Guid

theorem readPlain_eq_none (hmem : ',' ∈ cs) : readPlain cs = none := by
  have hhex (value : Nat) : readHex value cs = none := by
    induction cs generalizing value with
    | nil => cases hmem
    | cons c rest ih =>
        rw [readHex, Option.bind_eq_none_iff]
        intro d hd
        refine ih ((List.mem_cons.mp hmem).resolve_left fun hcomma => ?_) _
        rw [← hcomma] at hd
        cases hd
  unfold readPlain
  split
  · rw [hhex, Option.map_none]
  · rfl

-- A comma lies in one of the groups that dashes part, or behind them.
theorem mem_group (i count : Nat) (hdash : cs[i + count]? = some '-') (hmem : ',' ∈ cs.drop i) :
    ',' ∈ (cs.drop i).take count ∨ ',' ∈ cs.drop (i + count + 1) := by
  rw [← List.take_append_drop count (cs.drop i), List.drop_drop] at hmem
  refine (List.mem_append.mp hmem).imp_right fun hrest => ?_
  obtain ⟨hlt, hget⟩ := List.getElem?_eq_some_iff.mp hdash
  rw [List.drop_eq_getElem_cons hlt, hget] at hrest
  exact (List.mem_cons.mp hrest).resolve_left (by decide)

theorem readGrouped_eq_none (hmem : ',' ∈ cs) : readGrouped cs = none := by
  unfold readGrouped
  dsimp only
  split
  · rename_i hform
    simp only [List.all_cons, List.all_nil, Bool.and_eq_true, beq_iff_eq] at hform
    obtain ⟨-, hfirst, hsecond, hthird, hfourth, -⟩ := hform
    refine readPlain_eq_none ?_
    simp only [List.mem_append]
    rcases mem_group 0 8 hfirst hmem with h | hmem
    · exact .inl (.inl (.inl (.inl h)))
    rcases mem_group 9 4 hsecond hmem with h | hmem
    · exact .inl (.inl (.inl (.inr h)))
    rcases mem_group 14 4 hthird hmem with h | hmem
    · exact .inl (.inl (.inr h))
    rcases mem_group 19 4 hfourth hmem with h | hmem
    · exact .inl (.inr h)
    · exact .inr hmem
  · rfl

theorem read_eq_none (hmem : ',' ∈ cs) : read cs = none := by
  have hbraces : (if cs.length = 38 && cs.head? == some '\x7b' && cs.getLast? == some '\x7d' then
      readGrouped ((cs.drop 1).take 36) else none) = none := by
    split
    · rename_i hform
      simp only [Bool.and_eq_true, decide_eq_true_eq, beq_iff_eq] at hform
      obtain ⟨⟨hlength, hhead⟩, hlast⟩ := hform
      refine readGrouped_eq_none ?_
      obtain ⟨rest, rfl⟩ := List.head?_eq_some_iff.mp hhead
      obtain ⟨front, hfront⟩ := List.getLast?_eq_some_iff.mp hlast
      cases front with
      | nil =>
          rw [hfront] at hlength
          cases hlength
      | cons first inner =>
          obtain ⟨-, rfl⟩ := List.cons.inj hfront
          have hinner : inner.length = 36 := by simpa using hlength
          have hclosed : ',' ∈ inner ++ ['\x7d'] := (List.mem_cons.mp hmem).resolve_left (by decide)
          have htake : (inner ++ ['\x7d']).take 36 = inner := List.take_left' hinner
          rw [List.drop_one, List.tail_cons]
          refine htake.symm ▸ (List.mem_append.mp hclosed).resolve_right (by decide)
    · rfl
  have hurn : (if (cs.take 9).map Char.toLower == ['u', 'r', 'n', ':', 'u', 'u', 'i', 'd', ':'] then
      readGrouped (cs.drop 9) else none) = none := by
    split
    · rename_i hform
      refine readGrouped_eq_none ?_
      rw [← List.take_append_drop 9 cs] at hmem
      refine (List.mem_append.mp hmem).resolve_left fun hprefix => ?_
      have hlower := List.mem_map_of_mem (f := Char.toLower) hprefix
      rw [beq_iff_eq.mp hform] at hlower
      exact absurd hlower (by decide)
    · rfl
  unfold read
  dsimp only
  rw [readPlain_eq_none hmem, readGrouped_eq_none hmem, hbraces, hurn]
  rfl

end Guid

namespace Coercer

theorem parseDateTime_eq_none (c : Coercer) (hmem : ',' ∈ cs) : c.parseDateTime cs = none := by
  have htrim : ',' ∈ Text.trim cs := Text.mem_trim (by decide) hmem
  have hpatterns : (Calendar.isoPatterns ++ localPatterns c.locale.dateOrder).all
      (fun p => !p.contains (.literal ',')) = true := by
    cases c.locale.dateOrder <;> decide
  unfold parseDateTime
  dsimp only
  rw [Calendar.OffsetDateTime.read_eq_none htrim]
  refine List.findSome?_eq_none_iff.mpr fun p hp => ?_
  have hcomma := List.all_eq_true.mp hpatterns p hp
  rw [Calendar.Pattern.dateTime?, Calendar.Pattern.read_eq_none (by simpa using hcomma) htrim]
  rfl

theorem parseBoolean_eq_none (hmem : ',' ∈ cs) : parseBoolean cs = none := by
  have hword : ',' ∈ (Text.trim cs).map Char.toLower :=
    List.mem_map_of_mem (f := Char.toLower) (Text.mem_trim (by decide) hmem)
  have hne {word : List Char} (h : ',' ∉ word) :
      ((Text.trim cs).map Char.toLower == word) = false := by
    rw [beq_eq_false_iff_ne]
    rintro rfl
    exact h hword
  unfold parseBoolean
  dsimp only
  repeat rw [hne (by decide)]
  rfl

-- Numbers apart, only texts are read from what has a comma in it.
theorem parse_eq_none {c : Coercer} {token : String} {kind : Kind} (hmem : ',' ∈ token.toList)
    (hnumeric : kind.isNumeric = false) (hstring : kind ≠ .string) : c.parse token kind = none := by
  cases kind with
  | integer | long | double => cases hnumeric
  | string => exact absurd rfl hstring
  | date | datetime =>
      unfold parse
      dsimp only
      rw [parseDateTime_eq_none c hmem]
      rfl
  | boolean =>
      unfold parse
      dsimp only
      rw [parseBoolean_eq_none hmem]
      rfl
  | guid =>
      unfold parse
      dsimp only
      rw [Guid.read_eq_none (Text.mem_trim (by decide) hmem)]
      rfl

end Coercer

end Sieve
