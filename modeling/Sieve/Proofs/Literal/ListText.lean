import Sieve.Literal.BracketList
import Sieve.Proofs.Text.Blank

-- What stands in brackets for a list of texts, by what is read from it: items in quotes, bare ones,
-- and ones behind a quote that is never closed.
namespace Sieve.BracketList

variable {item body text rest cs : List Char} {items : List (List Char)} {quote c : Char}
  {fuel : Nat}

def gapChars : List Char :=
  [' ', '\t', '\r', '\n']

-- What stands between quotes for a text.
inductive Quotes (quote : Char) : List Char → List Char → Prop where
  | nil : Quotes quote [] []
  | escaped {c : Char} {item body : List Char} (h : Quotes quote item body) :
      Quotes quote (unescape c ++ item) ('\\' :: c :: body)
  | plain {c : Char} {item body : List Char} (hquote : c ≠ quote) (hbackslash : c ≠ '\\')
      (h : Quotes quote item body) : Quotes quote (c :: item) (c :: body)

-- A quote in front of these characters is not closed: each further one has a backslash before it.
inductive NeverCloses (quote : Char) : List Char → Prop where
  | nil : NeverCloses quote []
  | backslash : NeverCloses quote ['\\']
  | escaped {c : Char} {rest : List Char} (h : NeverCloses quote rest) :
      NeverCloses quote ('\\' :: c :: rest)
  | plain {c : Char} {rest : List Char} (hquote : c ≠ quote) (hbackslash : c ≠ '\\')
      (h : NeverCloses quote rest) : NeverCloses quote (c :: rest)

-- What stands for an item in front of the given rest. A quote that nothing in the text or the rest
-- closes is a character of the item.
inductive ItemText (rest : List Char) : List Char → List Char → Prop where
  | quoted {quote : Char} {before item body after : List Char}
      (hquote : quote = '"' ∨ quote = '\'') (hbefore : before ⊆ gapChars)
      (hbody : Quotes quote item body) (hafter : after ⊆ gapChars) :
      ItemText rest item (before ++ quote :: (body ++ quote :: after))
  | bare {before text : List Char} (hbefore : before ⊆ gapChars)
      (hhead : ∀ c ∈ text.head?, isGap c = false ∧ c ≠ '"' ∧ c ≠ '\'')
      (hends : ∀ c ∈ text, isItemEnd c = false) :
      ItemText rest (Text.trim text) (before ++ text)
  | unclosed {quote : Char} {before text : List Char} (hquote : quote = '"' ∨ quote = '\'')
      (hbefore : before ⊆ gapChars) (hopen : NeverCloses quote (text ++ rest))
      (hends : ∀ c ∈ text, isItemEnd c = false) :
      ItemText rest (quote :: Text.trimEnd text) (before ++ quote :: text)

-- What stands behind the opening bracket for a list.
inductive ListText : List (List Char) → List Char → Prop where
  | last {item text : List Char} (h : ItemText [']'] item text) :
      ListText [item] (text ++ [']'])
  | next {item text rest : List Char} {items : List (List Char)}
      (h : ItemText (',' :: rest) item text) (hrest : ListText items rest) :
      ListText (item :: items) (text ++ ',' :: rest)

theorem isGap_iff {c : Char} : isGap c = true ↔ c ∈ gapChars := by
  simp [isGap, gapChars, or_assoc]

theorem isBlank_of_mem_gapChars : ∀ c ∈ gapChars, Text.isBlank c = true := by
  have hall : gapChars.all Text.isBlank = true := by decide
  exact List.all_eq_true.mp hall

theorem isGap_of_isBlank {c : Char} (h : Text.isBlank c = false) : isGap c = false := by
  by_contra hgap
  have hblank := isBlank_of_mem_gapChars c (isGap_iff.mp (by simpa using hgap))
  simp [h] at hblank

theorem isItemEnd_of_isBlank {c : Char} (h : Text.isBlank c = true) : isItemEnd c = false := by
  rw [isItemEnd, Bool.or_eq_false_iff, decide_eq_false_iff_not, decide_eq_false_iff_not]
  constructor <;> rintro rfl <;> revert h <;> decide

-- The characters that end an item are told apart from those that may stand at its start.
theorem of_isItemEnd {c : Char} (h : isItemEnd c = true) :
    isGap c = false ∧ c ≠ '"' ∧ c ≠ '\'' := by
  rw [isItemEnd, Bool.or_eq_true, decide_eq_true_iff, decide_eq_true_iff] at h
  rcases h with rfl | rfl <;> decide

-- A quote is none of the characters that have a meaning of their own elsewhere.
theorem of_quote (h : quote = '"' ∨ quote = '\'') :
    quote ≠ '\\' ∧ isGap quote = false ∧ isItemEnd quote = false ∧
      Text.isBlank quote = false := by
  rcases h with rfl | rfl <;> decide

theorem skipGap_append (hgap : text ⊆ gapChars) (hcs : ∀ c ∈ cs.head?, isGap c = false) :
    skipGap (text ++ cs) = cs := by
  rw [skipGap, List.dropWhile_append_of_pos fun c hc => isGap_iff.mpr (hgap hc)]
  cases cs with
  | nil => rfl
  | cons c others => simp [hcs c rfl]

theorem skipGap_of_isItemEnd (h : ∀ c ∈ cs.head?, isItemEnd c = true) : skipGap cs = cs :=
  skipGap_append (List.nil_subset _) fun c hc => (of_isItemEnd (h c hc)).1

theorem exists_gap (cs : List Char) :
    ∃ before, before ⊆ gapChars ∧ cs = before ++ skipGap cs ∧
      ∀ c ∈ (skipGap cs).head?, isGap c = false := by
  refine ⟨cs.takeWhile isGap, ?_, List.takeWhile_append_dropWhile.symm, ?_⟩
  · intro c hc
    exact isGap_iff.mp (List.mem_takeWhile_imp hc)
  · intro c hc
    have hhead := List.head?_dropWhile_not isGap cs
    rw [skipGap, Option.mem_def] at hc
    rwa [hc] at hhead

theorem exists_item (cs : List Char) :
    ∃ text rest, cs = text ++ rest ∧ (∀ c ∈ text, isItemEnd c = false) ∧
      ∀ c ∈ rest.head?, isItemEnd c = true := by
  refine ⟨cs.takeWhile (!isItemEnd ·), cs.dropWhile (!isItemEnd ·),
    List.takeWhile_append_dropWhile.symm, ?_, ?_⟩
  · intro c hc
    simpa using List.mem_takeWhile_imp hc
  · intro c hc
    have hhead := List.head?_dropWhile_not (!isItemEnd ·) cs
    rw [Option.mem_def] at hc
    rw [hc] at hhead
    simpa using hhead

theorem takeQuoted_eq_none_iff (hquote : quote ≠ '\\') :
    takeQuoted quote cs = none ↔ NeverCloses quote cs := by
  constructor
  · intro h
    fun_induction takeQuoted quote cs with
    | case1 => exact .nil
    | case2 c rest ih => exact .escaped (ih (Option.map_eq_none_iff.mp h))
    | case3 rest => cases h
    | case4 rest hrest =>
        cases rest with
        | nil => exact .backslash
        | cons c others => exact (hrest c others rfl rfl).elim
    | case5 c rest _ hc hbackslash ih =>
        exact .plain hc hbackslash (ih (Option.map_eq_none_iff.mp h))
  · intro h
    induction h with
    | nil => rfl
    | backslash => simp [takeQuoted, hquote.symm]
    | escaped h ih => simp [takeQuoted, ih]
    | plain hc hbackslash h ih => simp [takeQuoted, hc, hbackslash, ih]

theorem takeQuoted_eq_some_iff (hquote : quote ≠ '\\') :
    takeQuoted quote cs = some (item, rest) ↔
      ∃ body, Quotes quote item body ∧ cs = body ++ quote :: rest := by
  constructor
  · intro h
    fun_induction takeQuoted quote cs generalizing item with
    | case1 => cases h
    | case2 c others ih =>
        obtain ⟨⟨read, _⟩, htake, heq⟩ := Option.map_eq_some_iff.mp h
        obtain ⟨rfl, rfl⟩ := Prod.mk.inj heq
        obtain ⟨body, hbody, rfl⟩ := ih htake
        exact ⟨_, .escaped hbody, rfl⟩
    | case3 others =>
        obtain ⟨rfl, rfl⟩ := Prod.mk.inj (Option.some.inj h)
        exact ⟨[], .nil, rfl⟩
    | case4 => cases h
    | case5 c others _ hc hbackslash ih =>
        obtain ⟨⟨read, _⟩, htake, heq⟩ := Option.map_eq_some_iff.mp h
        obtain ⟨rfl, rfl⟩ := Prod.mk.inj heq
        obtain ⟨body, hbody, rfl⟩ := ih htake
        exact ⟨_, .plain hc hbackslash hbody, rfl⟩
  · rintro ⟨body, hbody, rfl⟩
    induction hbody with
    | nil => simp [takeQuoted, hquote]
    | escaped h ih => simp [takeQuoted, ih]
    | plain hc hbackslash h ih => simp [takeQuoted, hc, hbackslash, ih]

theorem takeBare_append (htext : ∀ c ∈ text, isItemEnd c = false)
    (hrest : ∀ c ∈ rest.head?, isItemEnd c = true) :
    takeBare (text ++ rest) = (Text.trim text, rest) := by
  have hends : ∀ c ∈ text, (!isItemEnd c) = true := fun c hc => by simp [htext c hc]
  rw [takeBare, List.takeWhile_append_of_pos hends, List.dropWhile_append_of_pos hends]
  cases rest with
  | nil => simp
  | cons c others => simp [hrest c rfl]

-- An item that starts with a quote goes up to the closing one, or is bare if there is none.
theorem takeItem_quote (hquote : quote = '"' ∨ quote = '\'') (hskip : skipGap cs = quote :: rest) :
    takeItem cs =
      Prod.map id skipGap ((takeQuoted quote rest).getD (takeBare (quote :: rest))) := by
  unfold takeItem
  rw [hskip]
  rcases hquote with rfl | rfl <;> rfl

theorem takeItem_quoted (hquote : quote = '"' ∨ quote = '\'') (hbody : Quotes quote item body)
    (hskip : skipGap cs = quote :: (body ++ quote :: rest)) :
    takeItem cs = (item, skipGap rest) := by
  have htake : takeQuoted quote (body ++ quote :: rest) = some (item, rest) :=
    (takeQuoted_eq_some_iff (of_quote hquote).1).mpr ⟨body, hbody, rfl⟩
  rw [takeItem_quote hquote hskip, htake]
  rfl

-- An item that does not start with a quote goes up to the next comma or bracket.
theorem takeItem_bare (hskip : skipGap cs = text ++ rest)
    (hquote : ∀ c ∈ (text ++ rest).head?, c ≠ '"' ∧ c ≠ '\'')
    (htext : ∀ c ∈ text, isItemEnd c = false) (hrest : ∀ c ∈ rest.head?, isItemEnd c = true) :
    takeItem cs = (Text.trim text, rest) := by
  unfold takeItem
  rw [hskip]
  dsimp only
  split
  · rename_i heq
    exact absurd rfl (hquote '"' (by rw [heq]; rfl)).1
  · rename_i heq
    exact absurd rfl (hquote '\'' (by rw [heq]; rfl)).2
  · rw [Option.getD_none, takeBare_append htext hrest, skipGap_of_isItemEnd hrest]

-- Nor does one that starts with a quote which is not closed.
theorem takeItem_unclosed (hquote : quote = '"' ∨ quote = '\'')
    (hopen : NeverCloses quote (text ++ rest)) (hskip : skipGap cs = quote :: (text ++ rest))
    (htext : ∀ c ∈ text, isItemEnd c = false) (hrest : ∀ c ∈ rest.head?, isItemEnd c = true) :
    takeItem cs = (quote :: Text.trimEnd text, rest) := by
  obtain ⟨hbackslash, -, hend, hblank⟩ := of_quote hquote
  have htake : takeQuoted quote (text ++ rest) = none :=
    (takeQuoted_eq_none_iff hbackslash).mpr hopen
  have hbare : takeBare (quote :: text ++ rest) = (quote :: Text.trimEnd text, rest) := by
    rw [takeBare_append ?_ hrest, Text.trim_cons hblank]
    simpa [hend] using htext
  rw [takeItem_quote hquote hskip, htake, Option.getD_none, ← List.cons_append, hbare, Prod.map,
    skipGap_of_isItemEnd hrest, id]

theorem takeItem_itemText (h : ItemText (c :: rest) item text) (hc : isItemEnd c = true) :
    takeItem (text ++ c :: rest) = (item, c :: rest) := by
  have hend := of_isItemEnd hc
  cases h with
  | @quoted quote before _ body after hquote hbefore hbody hafter =>
      have hskip : skipGap (before ++ quote :: (body ++ quote :: after) ++ c :: rest) =
          quote :: (body ++ quote :: (after ++ c :: rest)) := by
        rw [List.append_assoc, skipGap_append hbefore (by simpa using (of_quote hquote).2.1)]
        simp
      rw [takeItem_quoted hquote hbody hskip, skipGap_append hafter (by simpa using hend.1)]
  | @bare before text hbefore hhead hends =>
      have hhead' : ∀ d ∈ (text ++ c :: rest).head?, isGap d = false ∧ d ≠ '"' ∧ d ≠ '\'' := by
        cases text with
        | nil => simpa using hend
        | cons first others => simpa using hhead first rfl
      refine takeItem_bare ?_ (fun d hd => (hhead' d hd).2) hends (by simpa using hc)
      rw [List.append_assoc, skipGap_append hbefore fun d hd => (hhead' d hd).1]
  | @unclosed quote before text hquote hbefore hopen hends =>
      refine takeItem_unclosed hquote hopen ?_ hends (by simpa using hc)
      rw [List.append_assoc, skipGap_append hbefore (by simpa using (of_quote hquote).2.1)]
      rfl

theorem exists_itemText (h : takeItem cs = (item, c :: rest)) :
    ∃ text, ItemText (c :: rest) item text ∧ cs = text ++ c :: rest := by
  obtain ⟨before, hbefore, hcs, hhead⟩ := exists_gap cs
  by_cases hquoted : ∃ quote tail, (quote = '"' ∨ quote = '\'') ∧ skipGap cs = quote :: tail
  · obtain ⟨quote, tail, hquote, hskip⟩ := hquoted
    have hbackslash := (of_quote hquote).1
    rw [hskip] at hcs
    by_cases hopen : NeverCloses quote tail
    · obtain ⟨text, left, rfl, hends, hleft⟩ := exists_item tail
      rw [takeItem_unclosed hquote hopen hskip hends hleft] at h
      obtain ⟨rfl, rfl⟩ := Prod.mk.inj h
      refine ⟨_, .unclosed hquote hbefore hopen hends, ?_⟩
      rw [hcs]
      simp
    · rw [← takeQuoted_eq_none_iff hbackslash, ← ne_eq, Option.ne_none_iff_exists'] at hopen
      obtain ⟨⟨read, left⟩, htake⟩ := hopen
      obtain ⟨body, hbody, rfl⟩ := (takeQuoted_eq_some_iff hbackslash).mp htake
      rw [takeItem_quoted hquote hbody hskip] at h
      obtain ⟨rfl, hleft⟩ := Prod.mk.inj h
      obtain ⟨after, hafter, hrest, -⟩ := exists_gap left
      rw [hleft] at hrest
      refine ⟨_, .quoted hquote hbefore hbody hafter, ?_⟩
      rw [hcs, hrest]
      simp
  · obtain ⟨text, left, hsplit, hends, hleft⟩ := exists_item (skipGap cs)
    have hplain : ∀ d ∈ (text ++ left).head?, d ≠ '"' ∧ d ≠ '\'' := by
      intro d hd
      rw [← hsplit] at hd
      obtain ⟨tail, htail⟩ := List.head?_eq_some_iff.mp hd
      rw [← not_or]
      exact fun hquote => hquoted ⟨d, tail, hquote, htail⟩
    rw [takeItem_bare hsplit hplain hends hleft] at h
    obtain ⟨rfl, rfl⟩ := Prod.mk.inj h
    refine ⟨_, .bare hbefore ?_ hends, ?_⟩
    · intro d hd
      have hd' : d ∈ (text ++ c :: rest).head? := by
        rw [List.head?_append, hd]
        rfl
      exact ⟨hhead d (by rwa [hsplit]), hplain d hd'⟩
    · rw [List.append_assoc, ← hsplit]
      exact hcs

theorem takeItems_succ_eq_some_iff :
    takeItems (fuel + 1) cs = some items ↔
      (∃ item, takeItem cs = (item, [']']) ∧ items = [item]) ∨
      ∃ item rest others, takeItem cs = (item, ',' :: rest) ∧
        takeItems fuel rest = some others ∧ items = item :: others := by
  rw [takeItems]
  split
  · rename_i item rest htake
    rw [htake, Option.map_eq_some_iff]
    constructor
    · rintro ⟨others, hrest, rfl⟩
      exact .inr ⟨item, rest, others, rfl, hrest, rfl⟩
    · rintro (⟨_, heq, -⟩ | ⟨_, _, others, heq, hrest, rfl⟩)
      · cases heq
      · cases heq
        exact ⟨others, hrest, rfl⟩
  · rename_i item htake
    simp [htake, eq_comm]
  · rename_i hnext hlast
    simp only [reduceCtorEq, false_iff, not_or, not_exists, not_and]
    exact ⟨fun item htake => (hlast item htake).elim,
      fun item rest _ htake => (hnext item rest htake).elim⟩

-- A list is read just from what is written for it.
theorem takeItems_eq_some_iff (hfuel : cs.length < fuel) :
    takeItems fuel cs = some items ↔ ListText items cs := by
  constructor
  · intro h
    induction fuel generalizing cs items with
    | zero => omega
    | succ fuel ih =>
        rcases takeItems_succ_eq_some_iff.mp h with
          ⟨item, htake, rfl⟩ | ⟨item, rest, others, htake, hrest, rfl⟩
        · obtain ⟨text, htext, rfl⟩ := exists_itemText htake
          exact .last htext
        · obtain ⟨text, htext, rfl⟩ := exists_itemText htake
          simp only [List.length_append, List.length_cons] at hfuel
          exact .next htext (ih (by omega) hrest)
  · intro h
    induction h generalizing fuel with
    | @last item text htext =>
        obtain ⟨fuel, rfl⟩ := Nat.exists_eq_succ_of_ne_zero (Nat.ne_zero_of_lt hfuel)
        exact takeItems_succ_eq_some_iff.mpr (.inl ⟨item, takeItem_itemText htext rfl, rfl⟩)
    | @next item text rest items htext _ ih =>
        obtain ⟨fuel, rfl⟩ := Nat.exists_eq_succ_of_ne_zero (Nat.ne_zero_of_lt hfuel)
        simp only [List.length_append, List.length_cons] at hfuel
        exact takeItems_succ_eq_some_iff.mpr
          (.inr ⟨item, rest, items, takeItem_itemText htext rfl, ih (by omega), rfl⟩)

-- A text in brackets is read between them, and blank brackets hold no item.
theorem read_of_trim (h : Text.trim cs = '[' :: rest) :
    read cs = (takeItems (rest.length + 1) rest).map fun items =>
      if items == [[]] then [] else items := by
  rw [read, h]
  rfl

theorem read_eq_some_iff (h : Text.trim cs = '[' :: rest) :
    read cs = some items ↔
      (ListText items rest ∧ items ≠ [[]]) ∨ (ListText [[]] rest ∧ items = []) := by
  have hread (items : List (List Char)) :
      takeItems (rest.length + 1) rest = some items ↔ ListText items rest :=
    takeItems_eq_some_iff (Nat.lt_succ_self _)
  rw [read_of_trim h, Option.map_eq_some_iff]
  simp only [hread]
  constructor
  · rintro ⟨others, hlist, rfl⟩
    by_cases hempty : others = [[]]
    · subst hempty
      exact .inr ⟨hlist, rfl⟩
    · exact .inl (by simpa [hempty] using hlist)
  · rintro (⟨hlist, hne⟩ | ⟨hlist, rfl⟩)
    · exact ⟨items, hlist, by simp [hne]⟩
    · exact ⟨[[]], hlist, rfl⟩

end Sieve.BracketList
