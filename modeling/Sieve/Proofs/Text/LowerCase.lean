import Mathlib.Data.List.TakeWhile
import Sieve.Proofs.Text.Search

-- Lower-casing in pieces. Only a capital sigma looks at what stands around it, so the lower case of
-- a text occurs in that of a longer one unless the text opens or ends in such a letter.
namespace Sieve

namespace Text

variable {before before' after after' cs : List Char} {s : Char}

theorem startsCased_append_of_ignorable (h : before.all isCaseIgnorable = true) :
    startsCased (before ++ after) = startsCased after := by
  have hnone : before.dropWhile isCaseIgnorable = [] := by
    rw [List.dropWhile_eq_nil_iff]
    exact List.all_eq_true.mp h
  rw [startsCased, List.dropWhile_append, hnone]
  rfl

theorem startsCased_append_of_not_ignorable (h : ¬before.all isCaseIgnorable = true) :
    startsCased (before ++ after) = startsCased before := by
  have hsome : before.dropWhile isCaseIgnorable ≠ [] := by
    rwa [ne_eq, List.dropWhile_eq_nil_iff, ← List.all_eq_true]
  obtain ⟨c, rest, hrest⟩ := List.exists_cons_of_ne_nil hsome
  rw [startsCased, startsCased, List.dropWhile_append, hrest]
  rfl

theorem startsCased_append_of_nil_or (h : after ≠ [] → ¬before.all isCaseIgnorable = true) :
    startsCased (before ++ after) = startsCased before := by
  rcases eq_or_ne after [] with rfl | hne
  · rw [List.append_nil]
  · exact startsCased_append_of_not_ignorable (h hne)

theorem startsCased_eq_false_of_ignorable (h : cs.all isCaseIgnorable = true) :
    startsCased cs = false := by
  have hend : startsCased (cs ++ []) = startsCased [] := startsCased_append_of_ignorable h
  rwa [List.append_nil] at hend

theorem startsCased_append_of_startsCased (h : startsCased before = true) :
    startsCased (before ++ after) = true := by
  rw [startsCased_append_of_not_ignorable, h]
  intro hall
  rw [startsCased_eq_false_of_ignorable hall] at h
  cases h

theorem lowerSigma_eq_final_iff :
    lowerSigma before after = 'ς' ↔ startsCased before = true ∧ startsCased after = false := by
  rw [lowerSigma]
  cases startsCased before <;> cases startsCased after <;> decide

theorem lowerSigma_eq_inner_iff :
    lowerSigma before after = 'σ' ↔ ¬(startsCased before = true ∧ startsCased after = false) := by
  rw [lowerSigma]
  cases startsCased before <;> cases startsCased after <;> decide

-- The lower case of a character between what precedes it, nearest character first, and what
-- follows it.
def lowerAt (before after : List Char) (c : Char) : List Char :=
  if c = 'Σ' then [lowerSigma before after] else lowerChar c

-- The same of a piece of a text.
def lowerBetween (before after : List Char) : List Char → List Char
  | [] => []
  | c :: rest => lowerAt before (rest ++ after) c ++ lowerBetween (c :: before) after rest

theorem lowerBetween_nil (before cs : List Char) :
    lowerBetween before [] cs = lowerAfter before cs := by
  induction cs generalizing before with
  | nil => rfl
  | cons c rest ih =>
      rw [lowerBetween, lowerAfter, ih, List.append_nil, lowerAt]
      split <;> rfl

theorem lowerBetween_append (before after first rest : List Char) :
    lowerBetween before after (first ++ rest) =
      lowerBetween before (rest ++ after) first ++
        lowerBetween (first.reverse ++ before) after rest := by
  induction first generalizing before with
  | nil => rfl
  | cons c first ih => simp [lowerBetween, ih]

-- A piece has the same lower case in surroundings that are the same to its capital sigmas.
theorem lowerBetween_congr
    (h : ∀ first rest, cs = first ++ 'Σ' :: rest →
      lowerSigma (first.reverse ++ before) (rest ++ after) =
        lowerSigma (first.reverse ++ before') (rest ++ after')) :
    lowerBetween before after cs = lowerBetween before' after' cs := by
  induction cs generalizing before before' with
  | nil => rfl
  | cons c rest ih =>
      have htail :
          lowerBetween (c :: before) after rest = lowerBetween (c :: before') after' rest :=
        ih fun first last hrest => by
          simpa using h (c :: first) last (by rw [hrest, List.cons_append])
      rw [lowerBetween, lowerBetween, htail, lowerAt, lowerAt]
      split
      · rename_i hc
        rw [show lowerSigma before (rest ++ after) = lowerSigma before' (rest ++ after') from
          h [] rest (by rw [hc, List.nil_append])]
      · rfl

-- Surroundings that make `s` of more capital sigmas leave more of it in the lower case of a piece.
theorem count_lowerBetween_le
    (h : ∀ first rest : List Char, lowerSigma (first.reverse ++ before) (rest ++ after) = s →
      lowerSigma (first.reverse ++ before') (rest ++ after') = s) :
    (lowerBetween before after cs).count s ≤ (lowerBetween before' after' cs).count s := by
  induction cs generalizing before before' with
  | nil => exact le_rfl
  | cons c rest ih =>
      have htail : (lowerBetween (c :: before) after rest).count s ≤
          (lowerBetween (c :: before') after' rest).count s :=
        ih fun first last => by
          simpa using h (c :: first) last
      rw [lowerBetween, lowerBetween, List.count_append, List.count_append]
      refine Nat.add_le_add ?_ htail
      rw [lowerAt, lowerAt]
      split
      · rw [List.count_singleton, List.count_singleton]
        simp only [beq_iff_eq]
        split
        · rename_i hs
          exact (if_pos (h [] rest hs)).ge
        · exact Nat.zero_le _
      · exact le_rfl

theorem count_lowerBetween_lt {first rest : List Char}
    (h : ∀ first rest : List Char, lowerSigma (first.reverse ++ before) (rest ++ after) = s →
      lowerSigma (first.reverse ++ before') (rest ++ after') = s)
    (hne : lowerSigma (first.reverse ++ before) (rest ++ after) ≠ s)
    (heq : lowerSigma (first.reverse ++ before') (rest ++ after') = s) :
    (lowerBetween before after (first ++ 'Σ' :: rest)).count s <
      (lowerBetween before' after' (first ++ 'Σ' :: rest)).count s := by
  have hfirst : (lowerBetween before ('Σ' :: rest ++ after) first).count s ≤
      (lowerBetween before' ('Σ' :: rest ++ after') first).count s :=
    count_lowerBetween_le fun head tail => by
      simpa using h head (tail ++ 'Σ' :: rest)
  have hrest : (lowerBetween ('Σ' :: (first.reverse ++ before)) after rest).count s ≤
      (lowerBetween ('Σ' :: (first.reverse ++ before')) after' rest).count s :=
    count_lowerBetween_le fun head tail => by
      simpa using h (first ++ 'Σ' :: head) tail
  simp only [lowerBetween_append, lowerBetween, lowerAt, if_true, List.count_append,
    List.count_singleton, heq, beq_self_eq_true, beq_eq_false_iff_ne.mpr hne, Bool.false_eq_true,
    if_false]
  omega

-- Whether a text opens in a capital sigma that could end a word which begins before it.
def opensInSigma (cs : List Char) : Bool :=
  match cs.dropWhile isCaseIgnorable with
  | [] => false
  | c :: rest => c == 'Σ' && !startsCased rest

-- Whether a text ends in a capital sigma at the end of a word that could go on behind it.
def endsInSigma (cs : List Char) : Bool :=
  match cs.reverse.dropWhile isCaseIgnorable with
  | [] => false
  | c :: rest => c == 'Σ' && startsCased rest

theorem dropWhile_ignorable_eq_sigma_iff {rest : List Char} :
    cs.dropWhile isCaseIgnorable = 'Σ' :: rest ↔
      ∃ first, cs = first ++ 'Σ' :: rest ∧ first.all isCaseIgnorable = true := by
  constructor
  · intro h
    exact ⟨cs.takeWhile isCaseIgnorable, by rw [← h, List.takeWhile_append_dropWhile],
      List.all_takeWhile⟩
  · rintro ⟨first, rfl, hfirst⟩
    rw [List.dropWhile_append_of_pos (List.all_eq_true.mp hfirst),
      List.dropWhile_cons_of_neg (by decide +kernel)]

theorem opensInSigma_iff :
    opensInSigma cs = true ↔
      ∃ first rest, cs = first ++ 'Σ' :: rest ∧ first.all isCaseIgnorable = true ∧
        startsCased rest = false := by
  constructor
  · intro h
    rw [opensInSigma] at h
    split at h
    · cases h
    · rename_i c rest hdrop
      rw [Bool.and_eq_true, beq_iff_eq, Bool.not_eq_true'] at h
      obtain ⟨first, hcs, hfirst⟩ := dropWhile_ignorable_eq_sigma_iff.mp (h.1 ▸ hdrop)
      exact ⟨first, rest, hcs, hfirst, h.2⟩
  · rintro ⟨first, rest, hcs, hfirst, hrest⟩
    rw [opensInSigma, dropWhile_ignorable_eq_sigma_iff.mpr ⟨first, hcs, hfirst⟩]
    simp [hrest]

theorem endsInSigma_iff :
    endsInSigma cs = true ↔
      ∃ first rest, cs = first ++ 'Σ' :: rest ∧ startsCased first.reverse = true ∧
        rest.all isCaseIgnorable = true := by
  constructor
  · intro h
    rw [endsInSigma] at h
    split at h
    · cases h
    · rename_i c rest hdrop
      rw [Bool.and_eq_true, beq_iff_eq] at h
      obtain ⟨last, hcs, hlast⟩ := dropWhile_ignorable_eq_sigma_iff.mp (h.1 ▸ hdrop)
      refine ⟨rest.reverse, last.reverse, ?_, by rw [List.reverse_reverse, h.2], ?_⟩
      · rw [← List.reverse_inj, hcs]
        simp
      · rw [List.all_reverse, hlast]
  · rintro ⟨first, rest, rfl, hfirst, hrest⟩
    have hdrop : (first ++ 'Σ' :: rest).reverse.dropWhile isCaseIgnorable =
        'Σ' :: first.reverse :=
      dropWhile_ignorable_eq_sigma_iff.mpr ⟨rest.reverse, by simp, by rw [List.all_reverse, hrest]⟩
    rw [endsInSigma, hdrop]
    simp [hfirst]

-- In any surroundings a piece has the lower case that it has alone, unless something stands on a
-- side where a capital sigma depends on it.
theorem lowerBetween_eq_lowerAfter (hbefore : before = [] ∨ opensInSigma cs = false)
    (hafter : after = [] ∨ endsInSigma cs = false) :
    lowerBetween before after cs = lowerAfter [] cs := by
  rw [← lowerBetween_nil]
  refine lowerBetween_congr fun first rest hcs => ?_
  have hopens (hne : before ≠ []) (hfirst : first.all isCaseIgnorable = true) :
      startsCased rest = true := by
    by_contra hrest
    have := opensInSigma_iff.mpr ⟨first, rest, hcs, hfirst, Bool.not_eq_true _ ▸ hrest⟩
    rw [hbefore.resolve_left hne] at this
    cases this
  have hends (hne : after ≠ []) (hrest : rest.all isCaseIgnorable = true) :
      startsCased first.reverse = false := by
    by_contra hfirst
    have := endsInSigma_iff.mpr ⟨first, rest, hcs, Bool.not_eq_false _ ▸ hfirst, hrest⟩
    rw [hafter.resolve_left hne] at this
    cases this
  by_cases hfirst : before ≠ [] ∧ first.all isCaseIgnorable = true
  · have hrest := hopens hfirst.1 hfirst.2
    simp [lowerSigma, hrest, startsCased_append_of_startsCased hrest]
  · have hsame : startsCased (first.reverse ++ before) = startsCased first.reverse :=
      startsCased_append_of_nil_or fun hne h => hfirst ⟨hne, by rwa [List.all_reverse] at h⟩
    by_cases hrest : after ≠ [] ∧ rest.all isCaseIgnorable = true
    · simp [lowerSigma, hsame, hends hrest.1 hrest.2]
    · have hsame' : startsCased (rest ++ after) = startsCased rest :=
        startsCased_append_of_nil_or fun hne h => hrest ⟨hne, h⟩
      simp [lowerSigma, hsame, hsame']

-- A letter in front makes the capital sigma that a text opens in the end of a word.
theorem count_inner_lt_of_opensInSigma (hbefore : startsCased before = true)
    (h : opensInSigma cs = true) :
    (lowerBetween before [] cs).count 'σ' < (lowerAfter [] cs).count 'σ' := by
  obtain ⟨first, rest, rfl, hfirst, hrest⟩ := opensInSigma_iff.mp h
  have hreverse : first.reverse.all isCaseIgnorable = true := by rwa [List.all_reverse]
  rw [← lowerBetween_nil]
  refine count_lowerBetween_lt (fun first rest h => ?_) ?_ ?_
  · rw [lowerSigma_eq_inner_iff] at h ⊢
    rw [List.append_nil first.reverse]
    exact fun hfinal => h ⟨startsCased_append_of_startsCased hfinal.1, hfinal.2⟩
  · rw [ne_eq, lowerSigma_eq_inner_iff, not_not, startsCased_append_of_ignorable hreverse,
      List.append_nil]
    exact ⟨hbefore, hrest⟩
  · rw [lowerSigma_eq_inner_iff, List.append_nil, startsCased_eq_false_of_ignorable hreverse]
    exact fun hfinal => Bool.noConfusion hfinal.1

-- A letter behind a text that ends in a capital sigma makes that the inside of a word.
theorem count_final_lt_of_endsInSigma (hafter : startsCased after = true)
    (h : endsInSigma cs = true) :
    (lowerBetween [] after cs).count 'ς' < (lowerAfter [] cs).count 'ς' := by
  obtain ⟨first, rest, rfl, hfirst, hrest⟩ := endsInSigma_iff.mp h
  rw [← lowerBetween_nil]
  refine count_lowerBetween_lt (fun first rest h => ?_) ?_ ?_
  · rw [lowerSigma_eq_final_iff] at h ⊢
    refine ⟨h.1, ?_⟩
    by_contra hcased
    rw [List.append_nil, Bool.not_eq_false] at hcased
    rw [startsCased_append_of_startsCased hcased] at h
    exact Bool.noConfusion h.2
  · rw [ne_eq, lowerSigma_eq_final_iff, startsCased_append_of_ignorable hrest, hafter]
    exact fun hfinal => Bool.noConfusion hfinal.2
  · rw [lowerSigma_eq_final_iff, List.append_nil, List.append_nil]
    exact ⟨hfirst, startsCased_eq_false_of_ignorable hrest⟩

-- Of texts in ASCII each character has its own lower case.
theorem lowerAfter_of_ascii (h : ∀ c ∈ cs, c.toNat < 0x80) (before : List Char) :
    lowerAfter before cs = cs.map Char.toLower := by
  induction cs generalizing before with
  | nil => rfl
  | cons c rest ih =>
      rw [List.forall_mem_cons] at h
      have hsigma : c ≠ 'Σ' := by
        rintro rfl
        exact absurd h.1 (by decide)
      rw [lowerAfter, if_neg hsigma, lowerChar, if_pos h.1, ih h.2]
      rfl

-- A character that lower-casing leaves as it is, wherever it stands.
def IsLower (c : Char) : Prop :=
  c ≠ 'Σ' ∧ lowerChar c = [c]

instance (c : Char) : Decidable (IsLower c) := inferInstanceAs (Decidable (_ ∧ _))

-- What the characters of one run are lowered to lies outside the other run, or between its members.
-- All pairs of runs are checked for it, hence by functions that the kernel knows.
def CaseRun.clears (run other : CaseRun) : Bool :=
  Nat.blt other.last run.image ||
    Nat.blt (run.image + (run.last - run.first)) other.first ||
    (Nat.beq run.last run.first || Nat.beq run.step 2) && Nat.beq other.step 2 &&
      !Nat.beq (run.image % 2) (other.first % 2)

theorem CaseRun.clears_iff {run other : CaseRun} :
    run.clears other = true ↔
      other.last < run.image ∨ run.image + (run.last - run.first) < other.first ∨
        (run.last = run.first ∨ run.step = 2) ∧ other.step = 2 ∧
          run.image % 2 ≠ other.first % 2 := by
  simp [clears, or_assoc, and_assoc, ← Bool.not_eq_true]

theorem CaseRun.covers_iff {run : CaseRun} {c : Char} :
    run.covers c = true ↔
      run.first ≤ c.toNat ∧ c.toNat ≤ run.last ∧ (c.toNat - run.first) % run.step = 0 := by
  simp [covers, and_assoc]

theorem CaseRun.not_covers_image {run other : CaseRun} {c d : Char} (hclear : run.clears other = true)
    (h : run.covers c = true) (hd : d.toNat = c.toNat - run.first + run.image) :
    ¬other.covers d = true := by
  rw [covers_iff] at h ⊢
  obtain ⟨hfirst, hlast, hstep⟩ := h
  rintro ⟨hfirst', hlast', hstep'⟩
  obtain habove | hbelow | ⟨hrun, hother, hparity⟩ := clears_iff.mp hclear
  · omega
  · omega
  · rw [hother] at hstep'
    obtain hone | htwo := hrun
    · omega
    · rw [htwo] at hstep
      omega

-- The capital i with a dot is in no run.
theorem clears_caseRuns :
    (caseRuns.all fun run => (⟨0x130, 0x130, 1, 0x69⟩ :: caseRuns).all run.clears) = true := by
  decide +kernel

-- No run is lowered to a capital of ASCII, or to what is no character.
theorem caseRuns_bounds :
    ∀ run ∈ caseRuns, 0x61 ≤ run.image ∧
      (run.image + (run.last - run.first) < 0xd800 ∨
        0xdfff < run.image ∧ run.image + (run.last - run.first) < 0x110000) := by
  decide +kernel

theorem isLower_of_not_covers {c : Char} (hcapital : 0x61 ≤ c.toNat)
    (h : ∀ run ∈ ⟨0x130, 0x130, 1, 0x69⟩ :: caseRuns, ¬run.covers c = true) : IsLower c := by
  rw [List.forall_mem_cons] at h
  constructor
  · rintro rfl
    have hsigma : caseRuns.any (·.covers 'Σ') = true := by decide +kernel
    obtain ⟨run, hrun, hcovers⟩ := List.any_eq_true.mp hsigma
    exact h.2 run hrun hcovers
  · have hdotted : c ≠ 'İ' := by
      rintro rfl
      exact h.1 (by decide)
    have hlower : c.toLower = c := by
      refine dif_neg fun hupper => ?_
      have hlast : c.toNat ≤ 0x5a := UInt32.le_iff_toNat_le.mp hupper.2
      omega
    rw [lowerChar, if_neg hdotted, List.find?_eq_none.mpr h.2, hlower, ite_self]

theorem isLower_of_mem_lowerChar {c d : Char} (hsigma : c ≠ 'Σ') (h : d ∈ lowerChar c) :
    IsLower d := by
  by_cases hascii : c.toNat < 0x80
  · rw [lowerChar, if_pos hascii, List.mem_singleton] at h
    have hall : ∀ n ∈ List.range 0x80, IsLower (Char.ofNat n).toLower := by decide +kernel
    have hlower := hall c.toNat (List.mem_range.mpr hascii)
    rwa [Char.ofNat_toNat, ← h] at hlower
  by_cases hdotted : c = 'İ'
  · have htwo : lowerChar 'İ' = ['i', '\u0307'] := by decide +kernel
    rw [hdotted, htwo] at h
    obtain rfl | rfl : d = 'i' ∨ d = '\u0307' := by simpa using h
    · decide +kernel
    · decide +kernel
  cases hfind : caseRuns.find? (·.covers c) with
  | none =>
      have hsame : lowerChar c = [c] := by
        rw [lowerChar, if_neg hascii, if_neg hdotted, hfind]
      rw [hsame, List.mem_singleton] at h
      rw [h]
      exact ⟨hsigma, hsame⟩
  | some run =>
      rw [lowerChar, if_neg hascii, if_neg hdotted, hfind, List.mem_singleton] at h
      have hrun := List.mem_of_find?_eq_some hfind
      have hcovers := List.find?_some hfind
      obtain ⟨himage, hvalid⟩ := caseRuns_bounds run hrun
      have hd : d.toNat = c.toNat - run.first + run.image := by
        obtain ⟨hfirst, hlast, -⟩ := CaseRun.covers_iff.mp hcovers
        rw [h, Char.ofNat, dif_pos (show Nat.isValidChar _ by unfold Nat.isValidChar; omega)]
        rfl
      have hclear := List.all_eq_true.mp (List.all_eq_true.mp clears_caseRuns run hrun)
      exact isLower_of_not_covers (by omega) fun other hother =>
        CaseRun.not_covers_image (hclear other hother) hcovers hd

theorem isLower_of_mem_lowerAfter {d : Char} (before : List Char) (h : d ∈ lowerAfter before cs) :
    IsLower d := by
  induction cs generalizing before with
  | nil => cases h
  | cons c rest ih =>
      rw [lowerAfter] at h
      split at h
      · obtain rfl | hrest := List.mem_cons.mp h
        · rw [lowerSigma]
          split <;> decide +kernel
        · exact ih _ hrest
      · rename_i hsigma
        obtain hhead | hrest := List.mem_append.mp h
        · exact isLower_of_mem_lowerChar hsigma hhead
        · exact ih _ hrest

theorem lowerAfter_of_isLower (h : ∀ c ∈ cs, IsLower c) (before : List Char) :
    lowerAfter before cs = cs := by
  induction cs generalizing before with
  | nil => rfl
  | cons c rest ih =>
      rw [List.forall_mem_cons] at h
      rw [lowerAfter, if_neg h.1.1, h.1.2, ih h.2, List.singleton_append]

-- A text in lower case is its own lower case.
theorem lower_lower (s : String) : lower (lower s) = lower s := by
  rw [lower, lower, String.toList_ofList,
    lowerAfter_of_isLower fun _ => isLower_of_mem_lowerAfter _]

end Text

namespace TextTest

variable {test : TextTest} {text pattern : String}

-- Whether the lower case of a pattern is the same wherever a text has the pattern for the test.
def Stable (test : TextTest) (pattern : String) : Prop :=
  (test = .beginsWith ∨ Text.opensInSigma pattern.toList = false) ∧
    (test = .endsWith ∨ Text.endsInSigma pattern.toList = false)

theorem holds_lower (hstable : test.Stable pattern) (h : test.holds text pattern = true) :
    test.holds (Text.lower text) (Text.lower pattern) = true := by
  obtain ⟨before, after, htext, hbefore, hafter⟩ := (holds_iff test text pattern).mp h
  have hreverse : test = .beginsWith → before.reverse = [] := by
    intro h
    rw [hbefore h, List.reverse_nil]
  have hpattern : Text.lowerBetween before.reverse after pattern.toList =
      Text.lowerAfter [] pattern.toList :=
    Text.lowerBetween_eq_lowerAfter (hstable.1.imp_left hreverse) (hstable.2.imp_left hafter)
  refine (holds_iff test _ _).mpr ⟨Text.lowerBetween [] (pattern.toList ++ after) before,
    Text.lowerAfter (pattern.toList.reverse ++ before.reverse) after, ?_, ?_, ?_⟩
  · simp only [Text.lower, String.toList_ofList, htext, ← hpattern, ← Text.lowerBetween_nil,
      Text.lowerBetween_append, List.append_assoc, List.append_nil]
  · intro h
    rw [hbefore h]
    rfl
  · intro h
    rw [hafter h]
    rfl

theorem count_le_of_holds (h : test.holds text pattern = true) (c : Char) :
    pattern.toList.count c ≤ text.toList.count c := by
  obtain ⟨before, after, htext, -, -⟩ := (holds_iff test text pattern).mp h
  rw [htext, List.count_append, List.count_append]
  omega

-- A text that has an unstable pattern next to a letter has the lower case of its sigma changed.
theorem exists_not_holds_lower (hstable : ¬test.Stable pattern) :
    ∃ text, test.holds text pattern = true ∧
      test.holds (Text.lower text) (Text.lower pattern) = false := by
  have hcased : Text.startsCased ['a'] = true := by decide +kernel
  rw [Stable, not_and_or, not_or, not_or, Bool.not_eq_false, Bool.not_eq_false] at hstable
  rcases hstable with ⟨htest, hopens⟩ | ⟨htest, hends⟩
  · refine ⟨String.ofList ('a' :: pattern.toList), ?_, Bool.eq_false_iff.mpr fun h => ?_⟩
    · exact (holds_iff ..).mpr ⟨['a'], [], by simp, fun h => absurd h htest, fun _ => rfl⟩
    · have hcount := count_le_of_holds h 'σ'
      have hlower : (Text.lower (String.ofList ('a' :: pattern.toList))).toList =
          'a' :: Text.lowerBetween ['a'] [] pattern.toList := by
        rw [Text.lower, String.toList_ofList, String.toList_ofList, Text.lowerBetween_nil]
        rfl
      rw [hlower, List.count_cons_of_ne (by decide), Text.lower, String.toList_ofList] at hcount
      exact absurd hcount (Text.count_inner_lt_of_opensInSigma hcased hopens).not_ge
  · refine ⟨String.ofList (pattern.toList ++ ['a']), ?_, Bool.eq_false_iff.mpr fun h => ?_⟩
    · exact (holds_iff ..).mpr ⟨[], ['a'], by simp, fun _ => rfl, fun h => absurd h htest⟩
    · have hcount := count_le_of_holds h 'ς'
      have hlower : (Text.lower (String.ofList (pattern.toList ++ ['a']))).toList =
          Text.lowerBetween [] ['a'] pattern.toList ++ ['a'] := by
        rw [Text.lower, String.toList_ofList, String.toList_ofList, ← Text.lowerBetween_nil,
          Text.lowerBetween_append]
        rfl
      rw [hlower, List.count_append, List.count_singleton, Text.lower, String.toList_ofList]
        at hcount
      exact absurd hcount (Text.count_final_lt_of_endsInSigma hcased hends).not_ge

-- A text that has a pattern has it with both in lower case too, for every text, if and only if the
-- pattern is stable.
theorem stable_iff :
    test.Stable pattern ↔
      ∀ text, test.holds text pattern = true →
        test.holds (Text.lower text) (Text.lower pattern) = true := by
  constructor
  · exact fun hstable text => holds_lower hstable
  · intro h
    by_contra hstable
    obtain ⟨text, hholds, hlower⟩ := exists_not_holds_lower hstable
    rw [h text hholds] at hlower
    cases hlower

end TextTest

end Sieve
