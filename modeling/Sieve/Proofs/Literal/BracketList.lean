import Mathlib.Data.List.Forall2
import Sieve.Proofs.Literal.ListText

-- The ways to write a list of texts in brackets, all of which are read as that list.
namespace Sieve.BracketList

variable {item text rest cs : List Char} {items texts : List (List Char)} {quote : Char}

-- What stands between quotes for a text: a backslash in front of each quote and each backslash.
def escape (quote : Char) (item : List Char) : List Char :=
  item.flatMap fun c => if c = quote ∨ c = '\\' then ['\\', c] else [c]

-- An item in quotes of one kind or the other, or bare where that can be taken for nothing else.
inductive Spells (item : List Char) : List Char → Prop where
  | quoted {quote : Char} (hquote : quote = '"' ∨ quote = '\'') :
      Spells item (quote :: (escape quote item ++ [quote]))
  | bare (hcomma : ',' ∉ item) (hbracket : ']' ∉ item)
      (hquote : ∀ c ∈ item.head?, c ≠ '"' ∧ c ≠ '\'')
      (hhead : ∀ c ∈ item.head?, Text.isBlank c = false)
      (hlast : ∀ c ∈ item.getLast?, Text.isBlank c = false) : Spells item item

-- An item with gaps around it.
inductive Writes (item : List Char) : List Char → Prop where
  | intro {before spelling after : List Char} (hbefore : before ⊆ gapChars)
      (hspells : Spells item spelling) (hafter : after ⊆ gapChars) :
      Writes item (before ++ spelling ++ after)

theorem quotes_escape (hquote : quote = '"' ∨ quote = '\'') (item : List Char) :
    Quotes quote item (escape quote item) := by
  induction item with
  | nil => exact .nil
  | cons c item ih =>
      rw [escape, List.flatMap_cons]
      rw [escape] at ih
      by_cases hc : c = quote ∨ c = '\\'
      · have hunescape : unescape c = [c] := by
          rcases hc with rfl | rfl
          · rcases hquote with rfl | rfl <;> rfl
          · rfl
        have hcons := ih.escaped (c := c)
        rw [hunescape] at hcons
        simpa [hc] using hcons
      · rw [not_or] at hc
        simpa [hc] using Quotes.plain hc.1 hc.2 ih

theorem itemText_of_writes (h : Writes item text) : ItemText rest item text := by
  obtain @⟨before, spelling, after, hbefore, hspells, hafter⟩ := h
  cases hspells with
  | @quoted quote hquote =>
      have hitem : ItemText rest item (before ++ quote :: (escape quote item ++ quote :: after)) :=
        .quoted hquote hbefore (quotes_escape hquote item) hafter
      simpa using hitem
  | bare hcomma hbracket hquote hhead hlast =>
      have hblank : ∀ d ∈ after, Text.isBlank d = true :=
        fun d hd => isBlank_of_mem_gapChars d (hafter hd)
      have htrim : Text.trim (item ++ after) = item :=
        Text.trim_around (List.forall_mem_nil _) hblank hhead hlast
      by_cases hempty : item = []
      · subst hempty
        have hitem : ItemText rest (Text.trim []) (before ++ after ++ []) :=
          .bare (List.append_subset.mpr ⟨hbefore, hafter⟩) (by simp) (by simp)
        rw [Text.trim_eq_nil (List.forall_mem_nil _)] at hitem
        simpa using hitem
      · have hhead' : ∀ c ∈ (item ++ after).head?, isGap c = false ∧ c ≠ '"' ∧ c ≠ '\'' := by
          rw [List.head?_append_of_ne_nil _ hempty]
          exact fun c hc => ⟨isGap_of_isBlank (hhead c hc), hquote c hc⟩
        have hends : ∀ d ∈ item ++ after, isItemEnd d = false := by
          intro d hd
          rcases List.mem_append.mp hd with hd | hd
          · have hne : d ≠ ',' ∧ d ≠ ']' := ⟨fun h => hcomma (h ▸ hd), fun h => hbracket (h ▸ hd)⟩
            simp [isItemEnd, hne]
          · exact isItemEnd_of_isBlank (hblank d hd)
        have hitem : ItemText rest (Text.trim (item ++ after)) (before ++ (item ++ after)) :=
          .bare hbefore hhead' hends
        rwa [htrim, ← List.append_assoc] at hitem

theorem listText_of_writes (h : List.Forall₂ Writes items texts) (hne : items ≠ []) :
    ListText items ([','].intercalate texts ++ [']']) := by
  induction h with
  | nil => exact absurd rfl hne
  | @cons item text items texts htext hrest ih =>
      cases hrest with
      | nil =>
          rw [List.intercalate_singleton]
          exact .last (itemText_of_writes htext)
      | @cons second other seconds others hsecond hothers =>
          have hlist := ListText.next (itemText_of_writes htext) (ih (List.cons_ne_nil _ _))
          rw [List.intercalate_cons_cons]
          simpa using hlist

theorem trim_bracketed (cs : List Char) :
    Text.trim ('[' :: (cs ++ [']'])) = '[' :: (cs ++ [']']) := by
  have hhead : Text.isBlank '[' = false := by decide
  have hlast : Text.isBlank ']' = false := by decide
  refine Text.trim_of_ends (by simpa using hhead) ?_
  simpa [List.getLast?_cons] using hlast

-- Blank brackets hold one empty item, which does not count.
theorem read_blank (h : ∀ c ∈ cs, Text.isBlank c = true) :
    read ('[' :: (cs ++ [']'])) = some [] := by
  obtain ⟨before, hbefore, hcs, hgap⟩ := exists_gap cs
  have hblank : ∀ c ∈ skipGap cs, Text.isBlank c = true :=
    fun c hc => h c (List.dropWhile_subset _ hc)
  have hhead : ∀ c ∈ (skipGap cs).head?, isGap c = false ∧ c ≠ '"' ∧ c ≠ '\'' := by
    refine fun c hc => ⟨hgap c hc, not_or.mp fun hquote => ?_⟩
    have hsolid := (of_quote hquote).2.2.2
    simp [hblank c (List.mem_of_mem_head? hc)] at hsolid
  have hitem : ItemText [']'] (Text.trim (skipGap cs)) (before ++ skipGap cs) :=
    .bare hbefore hhead fun c hc => isItemEnd_of_isBlank (hblank c hc)
  rw [Text.trim_eq_nil hblank, ← hcs] at hitem
  exact (read_eq_some_iff (trim_bracketed cs)).mpr (.inr ⟨.last hitem, rfl⟩)

theorem read_intercalate (h : List.Forall₂ Writes items texts) (hne : items ≠ [[]]) :
    read ('[' :: ([','].intercalate texts ++ [']'])) = some items := by
  by_cases hitems : items = []
  · subst hitems
    cases h
    exact read_blank (List.forall_mem_nil _)
  · exact (read_eq_some_iff (trim_bracketed _)).mpr (.inl ⟨listText_of_writes h hitems, hne⟩)

-- Every way to write a list of texts is read as that list, that of the one empty text aside, and
-- blank brackets are read as the empty list.
theorem read_written (h : List.Forall₂ Writes items texts) (hne : items ≠ [[]]) :
    read ('[' :: ([','].intercalate texts ++ [']'])) = some items ∧
      ∀ blanks, (∀ c ∈ blanks, Text.isBlank c = true) →
        read ('[' :: (blanks ++ [']'])) = some [] :=
  ⟨read_intercalate h hne, fun _ => read_blank⟩

-- A text in quotes of either kind with a comma, a quote or a bracket in it, nothing at all, and a
-- bare text with a blank and a bracket inside.
theorem mixed_spellings_read :
    read "[ \"a,\\\"]\" , 'it\\'s',,\tx [y ]".toList =
        some ["a,\"]".toList, "it's".toList, [], "x [y".toList] ∧
      read "[ \u3000\n]".toList = some [] := by
  have hdouble : Writes "a,\"]".toList " \"a,\\\"]\" ".toList :=
    @Writes.intro _ [' '] _ [' '] (by decide) (.quoted (.inl rfl)) (by decide)
  have hsingle : Writes "it's".toList "'it\\'s'".toList :=
    @Writes.intro _ [] _ [] (by decide) (.quoted (.inr rfl)) (by decide)
  have hnothing : Writes [] [] :=
    @Writes.intro _ [] _ [] (by decide)
      (.bare (by decide) (by decide) (by simp) (by simp) (by simp)) (by decide)
  have hbare : Writes "x [y".toList "\tx [y ".toList := by
    have hx : Text.isBlank 'x' = false := by decide
    have hy : Text.isBlank 'y' = false := by decide
    exact @Writes.intro _ ['\t'] _ [' '] (by decide)
      (.bare (by decide) (by decide) (by simp) (by simpa using hx) (by simpa using hy)) (by decide)
  have hblanks : ∀ c ∈ " \u3000\n".toList, Text.isBlank c = true := by
    have hall : " \u3000\n".toList.all Text.isBlank = true := by decide
    exact List.all_eq_true.mp hall
  have hread := read_written (.cons hdouble (.cons hsingle (.cons hnothing (.cons hbare .nil))))
    (by decide)
  exact ⟨hread.1, hread.2 _ hblanks⟩

end Sieve.BracketList
