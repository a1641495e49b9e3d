import Mathlib.Data.List.TakeWhile
import Sieve.Text.Blank

-- Blanks around a text are taken off, and nothing else.
namespace Sieve.Text

variable {before cs after : List Char}

theorem trimStart_eq_self (h : ∀ c ∈ cs.head?, isBlank c = false) : trimStart cs = cs := by
  cases cs with
  | nil => rfl
  | cons c rest => simp [trimStart, h c rfl]

theorem trim_eq_nil (h : ∀ c ∈ cs, isBlank c = true) : trim cs = [] := by
  rw [trim, trimStart, List.dropWhile_eq_nil_iff.mpr h]
  rfl

theorem trim_around (hbefore : ∀ c ∈ before, isBlank c = true)
    (hafter : ∀ c ∈ after, isBlank c = true) (hhead : ∀ c ∈ cs.head?, isBlank c = false)
    (hlast : ∀ c ∈ cs.getLast?, isBlank c = false) : trim (before ++ cs ++ after) = cs := by
  by_cases hcs : cs = []
  · subst hcs
    have hall : ∀ c ∈ before ++ [] ++ after, isBlank c = true := by
      simpa [or_imp, forall_and] using ⟨hbefore, hafter⟩
    exact trim_eq_nil hall
  · have hstart : trimStart (before ++ cs ++ after) = cs ++ after := by
      rw [List.append_assoc, trimStart, List.dropWhile_append_of_pos hbefore]
      exact trimStart_eq_self (by simpa [hcs] using hhead)
    have hend : trimStart cs.reverse = cs.reverse :=
      trimStart_eq_self (by simpa [List.head?_reverse] using hlast)
    have hafter' : ∀ c ∈ after.reverse, isBlank c = true := by simpa using hafter
    rw [trimStart] at hend
    rw [trim, hstart, trimEnd, List.reverse_append, List.dropWhile_append_of_pos hafter', hend,
      List.reverse_reverse]

theorem trim_of_ends (hhead : ∀ c ∈ cs.head?, isBlank c = false)
    (hlast : ∀ c ∈ cs.getLast?, isBlank c = false) : trim cs = cs := by
  have hends := trim_around (List.forall_mem_nil _) (List.forall_mem_nil _) hhead hlast
  rwa [List.append_nil, List.nil_append] at hends

theorem trim_eq_self (h : ∀ c ∈ cs, isBlank c = false) : trim cs = cs :=
  trim_of_ends (fun c hc => h c (List.mem_of_mem_head? hc))
    (fun c hc => h c (List.mem_of_mem_getLast? hc))

theorem trim_cons {c : Char} (h : isBlank c = false) (cs : List Char) :
    trim (c :: cs) = c :: trimEnd cs := by
  rw [trim, trimStart_eq_self (by simpa using h), trimEnd, trimEnd, List.reverse_cons,
    List.dropWhile_append]
  split
  · rename_i hempty
    rw [List.isEmpty_iff.mp hempty]
    simp [h]
  · simp

theorem isBlank_of_mem_getLast?_trim (cs : List Char) :
    ∀ c ∈ (trim cs).getLast?, isBlank c = false := by
  intro c hc
  have hhead := List.head?_dropWhile_not isBlank (trimStart cs).reverse
  rw [trim, trimEnd, List.getLast?_reverse, Option.mem_def] at hc
  rwa [hc] at hhead

end Sieve.Text
