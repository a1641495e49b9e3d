import Sieve.Literal.Tokens
import Sieve.Proofs.Literal.ListText

-- Texts that begin with a bracket and have an item that opens with a quote which is never closed.
-- They stay whole unless they make a list in which the quote is a character like others.
namespace Sieve

namespace BracketList

variable {cs rest after : List Char} {items : List (List Char)} {fuel : Nat}

-- Behind the opening bracket an item opens with a quote that is never closed. What stands before
-- that item need not be a list.
inductive Unclosed : List Char → Prop where
  | here {quote : Char} {before rest : List Char} (hquote : quote = '"' ∨ quote = '\'')
      (hbefore : before ⊆ gapChars) (hopen : NeverCloses quote rest) :
      Unclosed (before ++ quote :: rest)
  | afterQuoted {quote : Char} {before item body after rest : List Char}
      (hquote : quote = '"' ∨ quote = '\'') (hbefore : before ⊆ gapChars)
      (hbody : Quotes quote item body) (hafter : ∀ c ∈ after, isItemEnd c = false)
      (h : Unclosed rest) : Unclosed (before ++ quote :: (body ++ quote :: (after ++ ',' :: rest)))
  | afterBare {before text rest : List Char} (hbefore : before ⊆ gapChars)
      (hhead : ∀ c ∈ text.head?, isGap c = false ∧ c ≠ '"' ∧ c ≠ '\'')
      (hends : ∀ c ∈ text, isItemEnd c = false) (h : Unclosed rest) :
      Unclosed (before ++ (text ++ ',' :: rest))

theorem skipGap_append_cons {c : Char} (hc : isGap c = false) :
    skipGap (after ++ c :: rest) = skipGap after ++ c :: rest := by
  rw [skipGap, skipGap, List.dropWhile_append]
  split
  · rename_i hempty
    rw [List.isEmpty_iff.mp hempty]
    simp [hc]
  · rfl

theorem mem_of_takeItems (h : takeItems fuel cs = some items) : (takeItem cs).1 ∈ items := by
  cases fuel with
  | zero => cases h
  | succ fuel =>
      rcases takeItems_succ_eq_some_iff.mp h with ⟨item, htake, rfl⟩ | ⟨item, _, _, htake, -, rfl⟩
      · simp [htake]
      · simp [htake]

theorem takeItems_rest (h : takeItems fuel cs = some items)
    (hrest : (takeItem cs).2 = ',' :: rest) :
    ∃ fuel' others, takeItems fuel' rest = some others ∧ others ⊆ items := by
  cases fuel with
  | zero => cases h
  | succ fuel =>
      rcases takeItems_succ_eq_some_iff.mp h with
        ⟨item, htake, rfl⟩ | ⟨item, left, others, htake, hothers, rfl⟩
      · simp [htake] at hrest
      · obtain rfl : left = rest := by simpa [htake] using hrest
        exact ⟨fuel, others, hothers, List.subset_cons_self _ _⟩

theorem isItemEnd_of_takeItems (h : takeItems fuel cs = some items) :
    ∃ c ∈ (takeItem cs).2.head?, isItemEnd c = true := by
  cases fuel with
  | zero => cases h
  | succ fuel =>
      rcases takeItems_succ_eq_some_iff.mp h with ⟨item, htake, -⟩ | ⟨item, _, _, htake, -, -⟩
      · exact ⟨']', by simp [htake], rfl⟩
      · exact ⟨',', by simp [htake], rfl⟩

-- A list that is read in spite of the quote has an item that begins with one.
theorem exists_quote_of_takeItems (h : Unclosed cs) (htake : takeItems fuel cs = some items) :
    ∃ item ∈ items, ∃ c ∈ item.head?, c = '"' ∨ c = '\'' := by
  induction h generalizing fuel items with
  | @here quote before rest hquote hbefore hopen =>
      obtain ⟨text, left, rfl, hends, hleft⟩ := exists_item rest
      have hskip : skipGap (before ++ quote :: (text ++ left)) = quote :: (text ++ left) :=
        skipGap_append hbefore (by simpa using (of_quote hquote).2.1)
      have hmem := mem_of_takeItems htake
      rw [takeItem_unclosed hquote hopen hskip hends hleft] at hmem
      exact ⟨_, hmem, quote, rfl, hquote⟩
  | @afterQuoted quote before item body after rest hquote hbefore hbody hafter _ ih =>
      have hskip : skipGap (before ++ quote :: (body ++ quote :: (after ++ ',' :: rest))) =
          quote :: (body ++ quote :: (after ++ ',' :: rest)) :=
        skipGap_append hbefore (by simpa using (of_quote hquote).2.1)
      have hitem := takeItem_quoted hquote hbody hskip
      -- What stands between the closing quote and the comma can only be a gap.
      have hleft : skipGap (after ++ ',' :: rest) = skipGap after ++ ',' :: rest :=
        skipGap_append_cons rfl
      cases hafterGap : skipGap after with
      | nil =>
          rw [hafterGap] at hleft
          obtain ⟨fuel', others, hothers, hsubset⟩ :=
            takeItems_rest htake (by rw [hitem, hleft]; rfl)
          obtain ⟨other, hmem, hquoted⟩ := ih hothers
          exact ⟨other, hsubset hmem, hquoted⟩
      | cons d others =>
          obtain ⟨c, hc, hend⟩ := isItemEnd_of_takeItems htake
          rw [hitem, hleft, hafterGap] at hc
          obtain rfl : d = c := by simpa using hc
          have hmem : d ∈ skipGap after := by simp [hafterGap]
          simp [hafter d (List.dropWhile_subset _ hmem)] at hend
  | @afterBare before text rest hbefore hhead hends _ ih =>
      have hhead' : ∀ c ∈ (text ++ ',' :: rest).head?, isGap c = false ∧ c ≠ '"' ∧ c ≠ '\'' := by
        cases text with
        | nil => simp; decide
        | cons first others => simpa using hhead first rfl
      have hskip := skipGap_append hbefore fun c hc => (hhead' c hc).1
      have hitem := takeItem_bare hskip (fun c hc => (hhead' c hc).2) hends (by simp; rfl)
      obtain ⟨fuel', others, hothers, hsubset⟩ := takeItems_rest htake (by rw [hitem])
      obtain ⟨other, hmem, hquoted⟩ := ih hothers
      exact ⟨other, hsubset hmem, hquoted⟩

end BracketList

namespace Literal

open BracketList (ListText Unclosed)

variable {s : String} {cs : List Char} {items : List (List Char)}

-- A text that begins with a bracket is a list or one text.
theorem canonicalize_bracket (locale : Locale) (hs : Text.trim s.toList = '[' :: cs) :
    canonicalize (some (.text s)) true locale =
      ((BracketList.read ('[' :: cs)).map (·.map String.ofList)).getD [s] := by
  change splitText s = _
  simp only [splitText, hs, List.head?_cons, beq_self_eq_true, if_true]
  cases BracketList.read ('[' :: cs) <;> rfl

theorem trim_bracket (hs : Text.trim s.toList = '[' :: cs) : Text.trim ('[' :: cs) = '[' :: cs := by
  have hhead : Text.isBlank '[' = false := by decide
  refine Text.trim_of_ends (by simpa using hhead) ?_
  rw [← hs]
  exact Text.isBlank_of_mem_getLast?_trim s.toList

theorem canonicalize_of_no_list (locale : Locale) (hs : Text.trim s.toList = '[' :: cs)
    (hnone : ¬∃ items, ListText items cs) : canonicalize (some (.text s)) true locale = [s] := by
  have hfails : BracketList.read ('[' :: cs) = none := by
    by_contra hsome
    obtain ⟨items, hitems⟩ := Option.ne_none_iff_exists'.mp hsome
    rcases (BracketList.read_eq_some_iff (trim_bracket hs)).mp hitems with ⟨h, -⟩ | ⟨h, -⟩
    · exact hnone ⟨items, h⟩
    · exact hnone ⟨[[]], h⟩
  rw [canonicalize_bracket locale hs, hfails]
  rfl

theorem canonicalize_of_list (locale : Locale) (hs : Text.trim s.toList = '[' :: cs)
    (h : ListText items cs) (hne : items ≠ [[]]) :
    canonicalize (some (.text s)) true locale = items.map String.ofList := by
  have hread := (BracketList.read_eq_some_iff (trim_bracket hs)).mpr (.inl ⟨h, hne⟩)
  rw [canonicalize_bracket locale hs, hread]
  rfl

theorem exists_quote_of_list (hopen : Unclosed cs) (h : ListText items cs) :
    ∃ item ∈ items, ∃ c ∈ item.head?, c = '"' ∨ c = '\'' :=
  BracketList.exists_quote_of_takeItems hopen
    ((BracketList.takeItems_eq_some_iff (Nat.lt_succ_self _)).mpr h)

-- A text with a bracket first is not its own only item, since no item with a quote is.
theorem map_ofList_ne_of_quote (hs : Text.trim s.toList = '[' :: cs)
    (hquote : ∃ item ∈ items, ∃ c ∈ item.head?, c = '"' ∨ c = '\'') :
    items.map String.ofList ≠ [s] := by
  intro hitems
  obtain ⟨item, hitem, c, hc, hquote⟩ := hquote
  obtain ⟨only, rfl, rfl⟩ := List.map_eq_singleton_iff.mp hitems
  obtain rfl := List.mem_singleton.mp hitem
  obtain ⟨tail, rfl⟩ := List.head?_eq_some_iff.mp hc
  rw [String.toList_ofList, Text.trim_cons (BracketList.of_quote hquote).2.2.2] at hs
  obtain ⟨rfl, -⟩ := List.cons.inj hs
  revert hquote
  decide

-- A text with a quote that is never closed stays whole just when it is no list. Else it comes apart
-- into the items of that list, one of which begins with a quote.
theorem canonicalize_unclosed (locale : Locale) (hs : Text.trim s.toList = '[' :: cs)
    (hopen : Unclosed cs) :
    (canonicalize (some (.text s)) true locale = [s] ↔ ¬∃ items, ListText items cs) ∧
      ∀ items, ListText items cs →
        canonicalize (some (.text s)) true locale = items.map String.ofList ∧
          ∃ item ∈ items, ∃ c ∈ item.head?, c = '"' ∨ c = '\'' := by
  have hlist (items : List (List Char)) (h : ListText items cs) :
      canonicalize (some (.text s)) true locale = items.map String.ofList ∧
        ∃ item ∈ items, ∃ c ∈ item.head?, c = '"' ∨ c = '\'' := by
    have hquote := exists_quote_of_list hopen h
    refine ⟨canonicalize_of_list locale hs h ?_, hquote⟩
    rintro rfl
    simp at hquote
  refine ⟨⟨?_, canonicalize_of_no_list locale hs⟩, hlist⟩
  rintro hwhole ⟨items, h⟩
  obtain ⟨hitems, hquote⟩ := hlist items h
  exact map_ofList_ne_of_quote hs hquote (hitems.symm.trans hwhole)

-- Behind an item in quotes, with an apostrophe that a backslash keeps from closing the first one.
theorem apostrophe_begins_item :
    Text.trim "[\"a,b\", 'c\\', d] ".toList = '[' :: "\"a,b\", 'c\\', d]".toList ∧
      Unclosed "\"a,b\", 'c\\', d]".toList ∧
      canonicalize (some (.text "[\"a,b\", 'c\\', d] ")) true .deDE = ["a,b", "'c\\'", "d"] ∧
      canonicalize (some (.text "[\"a,b\", 'c\\', d] ")) true .deDE ≠ ["[\"a,b\", 'c\\', d] "] := by
  have htrim : Text.trim "[\"a,b\", 'c\\', d] ".toList = '[' :: "\"a,b\", 'c\\', d]".toList := by
    decide +kernel
  have hfirst : BracketList.Quotes '"' "a,b".toList "a,b".toList :=
    .plain (by decide) (by decide) (.plain (by decide) (by decide)
      (.plain (by decide) (by decide) .nil))
  have hopen : BracketList.NeverCloses '\'' "c\\', d]".toList :=
    (BracketList.takeQuoted_eq_none_iff (by decide)).mp (by decide +kernel)
  have hsecond : Unclosed " 'c\\', d]".toList :=
    @Unclosed.here '\'' [' '] _ (.inr rfl) (by decide) hopen
  have hunclosed : Unclosed "\"a,b\", 'c\\', d]".toList :=
    @Unclosed.afterQuoted '"' [] _ _ [] _ (.inl rfl) (List.nil_subset _) hfirst
      (List.forall_mem_nil _) hsecond
  have hlist : ListText ["a,b".toList, "'c\\'".toList, "d".toList] "\"a,b\", 'c\\', d]".toList :=
    (BracketList.takeItems_eq_some_iff (Nat.lt_succ_self _)).mp (by decide +kernel)
  have hread := canonicalize_unclosed .deDE htrim hunclosed
  exact ⟨htrim, hunclosed, (hread.2 _ hlist).1, fun hwhole => hread.1.mp hwhole ⟨_, hlist⟩⟩

-- A quote that is never closed does not keep the comma behind it from parting the text.
theorem unclosed_quote_parted_at_comma :
    Unclosed "\"a,b]".toList ∧
      canonicalize (some (.text "[\"a,b]")) true .invariant = ["\"a", "b"] ∧
      canonicalize (some (.text "[\"a,b]")) true .invariant ≠ ["[\"a,b]"] := by
  have hopen : BracketList.NeverCloses '"' "a,b]".toList :=
    (BracketList.takeQuoted_eq_none_iff (by decide)).mp (by decide +kernel)
  have htokens : canonicalize (some (.text "[\"a,b]")) true .invariant = ["\"a", "b"] := by
    decide +kernel
  refine ⟨@Unclosed.here '"' [] _ (.inl rfl) (List.nil_subset _) hopen, htokens, ?_⟩
  rw [htokens]
  decide

end Literal

end Sieve
