import Sieve.Json.Printer
import Sieve.Proofs.Json.Value

-- A printed value is read as that value, and the text behind it is left.
namespace Sieve.Json

open Decimal (isDigit)

variable {rest others : List Char}

-- Strings

theorem codeUnit?_control {n : Nat} (hn : n < 0x20) :
    codeUnit? '0' '0' (Nat.digitChar (n / 16)) (Nat.digitChar (n % 16)) = some n := by
  have hall : ∀ n < 0x20,
      codeUnit? '0' '0' (Nat.digitChar (n / 16)) (Nat.digitChar (n % 16)) = some n := by decide
  exact hall n hn

-- What is read for a printed character is one piece, and it stands for that character.
theorem exists_piece (c : Char) :
    ∃ piece, (∀ read others,
      takePieces read (escapeChar c ++ others) = takePieces (piece :: read) others) ∧
        ∀ pieces, joinPieces (piece :: pieces) = (joinPieces pieces).map (c :: ·) := by
  by_cases hshort : c ∈ ['"', '\\', '\x08', '\x0c', '\n', '\r', '\t']
  · refine ⟨.char c, fun read others => ?_, fun pieces => rfl⟩
    simp only [List.mem_cons, List.not_mem_nil, or_false] at hshort
    rcases hshort with rfl | rfl | rfl | rfl | rfl | rfl | rfl <;> rfl
  simp only [List.mem_cons, List.not_mem_nil, or_false, not_or] at hshort
  obtain ⟨hquote, hbackslash, hb, hf, hn, hr, ht⟩ := hshort
  by_cases hcontrol : c.toNat < 0x20
  · refine ⟨.unit c.toNat, fun read others => ?_, fun pieces => ?_⟩
    · simp [escapeChar, hcontrol, takePieces, codeUnit?_control]
    · rw [joinPieces.eq_def]
      dsimp only
      rw [if_neg (by omega), if_neg (by omega), Char.ofNat_toNat]
  · refine ⟨.char c, fun read others => ?_, fun pieces => rfl⟩
    simp [escapeChar, hcontrol, takePieces, hbackslash]

theorem takeString_escaped (s : String) (rest : List Char) :
    takeString (s.toList.flatMap escapeChar ++ '"' :: rest) = some (some s, rest) := by
  have hpieces (cs : List Char) : ∃ pieces, joinPieces pieces = some cs ∧ ∀ read,
      takePieces read (cs.flatMap escapeChar ++ '"' :: rest) = some (read.reverse ++ pieces, rest) := by
    induction cs with
    | nil => exact ⟨[], rfl, fun read => by simp [takePieces]⟩
    | cons c cs ih =>
        obtain ⟨pieces, hjoin, htake⟩ := ih
        obtain ⟨piece, hread, hpiece⟩ := exists_piece c
        refine ⟨piece :: pieces, by rw [hpiece, hjoin]; rfl, fun read => ?_⟩
        rw [List.flatMap_cons, List.append_assoc, hread, htake]
        simp
  obtain ⟨pieces, hjoin, htake⟩ := hpieces s.toList
  rw [takeString, htake, Option.map_some]
  simp [hjoin]

-- Values

theorem endsNumeral_cons {c : Char} (h : isDigit c = false ∧ c ≠ '.' ∧ c ≠ 'e' ∧ c ≠ 'E')
    (rest : List Char) : EndsNumeral (c :: rest) := by
  rintro _ _ ⟨⟩
  exact h

theorem toList_renderString (s : String) (rest : List Char) :
    (renderString s).toList ++ rest = '"' :: (s.toList.flatMap escapeChar ++ '"' :: rest) := by
  simp [renderString]

theorem skipSpace_skipSpace (cs : List Char) : skipSpace (skipSpace cs) = skipSpace cs :=
  List.dropWhile_idempotent isSpace cs

theorem takeValue_skipSpace (fuel : Nat) (cs : List Char) :
    takeValue fuel (skipSpace cs) = takeValue fuel cs := by
  cases fuel with
  | zero => rfl
  | succ fuel => simp only [takeValue, skipSpace_skipSpace]

theorem takeValue_string (fuel : Nat) (s : String) (rest : List Char) :
    takeValue (fuel + 1) ((renderString s).toList ++ rest) = some (.string (some s), rest) := by
  rw [toList_renderString, takeValue, skipSpace_cons rfl]
  simp [takeString_escaped]

theorem takeItems_last {fuel : Nat} {cs : List Char} {item : Source}
    (hitem : takeValue fuel cs = some (item, others)) (hothers : skipSpace others = ']' :: rest) :
    takeItems (fuel + 1) cs = some ([item], rest) := by
  simp [takeItems, hitem, hothers]

theorem takeItems_next {fuel : Nat} {cs behind : List Char} {item : Source} {items : List Source}
    (hitem : takeValue fuel cs = some (item, others)) (hothers : skipSpace others = ',' :: behind)
    (hitems : takeItems fuel behind = some (items, rest)) :
    takeItems (fuel + 1) cs = some (item :: items, rest) := by
  simp [takeItems, hitem, hothers, hitems]

theorem takeValue_array {fuel : Nat} {cs : List Char} {items : List Source}
    (h : takeItems fuel cs = some (items, rest)) :
    takeValue (fuel + 1) ('[' :: cs) = some (.array items, rest) := by
  obtain _ | fuel := fuel
  · cases h
  have hskip : takeItems (fuel + 1) (skipSpace cs) = some (items, rest) := by
    rw [takeItems, takeValue_skipSpace]
    exact h
  have hopen (others : List Char) : skipSpace cs ≠ ']' :: others := by
    intro hclosed
    have hvalue : takeValue fuel (']' :: others) = none := by
      cases fuel <;> rfl
    rw [hclosed, takeItems, hvalue] at hskip
    cases hskip
  rw [takeValue, skipSpace_cons rfl]
  simp [hskip]

theorem takeMembers_last {fuel : Nat} {behind : List Char} {value : Source} (name : String)
    (hvalue : takeValue fuel behind = some (value, others))
    (hothers : skipSpace others = '\x7d' :: rest) :
    takeMembers (fuel + 1) ((renderString name).toList ++ ':' :: behind) =
      some ([(some name, value)], rest) := by
  rw [toList_renderString, takeMembers, skipSpace_cons rfl]
  simp [takeString_escaped, skipSpace_cons, isSpace, hvalue, hothers]

theorem takeMembers_next {fuel : Nat} {behind last : List Char} {value : Source}
    {members : List (Option String × Source)} (name : String)
    (hvalue : takeValue fuel behind = some (value, others))
    (hothers : skipSpace others = ',' :: last)
    (hmembers : takeMembers fuel last = some (members, rest)) :
    takeMembers (fuel + 1) ((renderString name).toList ++ ':' :: behind) =
      some ((some name, value) :: members, rest) := by
  rw [toList_renderString, takeMembers, skipSpace_cons rfl]
  simp [takeString_escaped, skipSpace_cons, isSpace, hvalue, hothers, hmembers]

theorem takeValue_object {fuel : Nat} {cs : List Char} {members : List (Option String × Source)}
    (h : takeMembers fuel ('"' :: cs) = some (members, rest)) :
    takeValue (fuel + 1) ('\x7b' :: '"' :: cs) = some (.object members, rest) := by
  rw [takeValue, skipSpace_cons rfl]
  simp [skipSpace_cons, isSpace, h]

theorem toList_renderMembers (name : String) (value : Json) (members : List (String × Json)) :
    ∃ cs, (renderMembers ((name, value) :: members)).toList = '"' :: cs := by
  cases members <;> simp [renderMembers, renderString]

-- Whether a printed value is read as what it says, whatever is printed behind it. Behind a number
-- spaces may be left over, if it was printed with any.
def Reads (json : Json) : Prop :=
  ∀ fuel rest, 2 * json.render.toList.length ≤ fuel → EndsNumeral rest →
    ∃ others, takeValue (fuel + 1) (json.render.toList ++ rest) = some (json.source, others) ∧
      skipSpace others = skipSpace rest

-- The induction takes two units of fuel for each item: one for the item, one for the list.
theorem takeItems_render {item : Json} {items : List Json} (h : ∀ json ∈ item :: items, json.Reads)
    {fuel : Nat} (hfuel : 2 * (renderItems (item :: items)).toList.length ≤ fuel)
    (rest : List Char) :
    takeItems (fuel + 2) ((renderItems (item :: items)).toList ++ ']' :: rest) =
      some (sources (item :: items), rest) := by
  induction items generalizing item fuel with
  | nil =>
      have hitem := h item List.mem_cons_self
      rw [renderItems] at hfuel ⊢
      obtain ⟨others, hvalue, hothers⟩ := hitem fuel (']' :: rest) hfuel
        (endsNumeral_cons (by decide) rest)
      exact takeItems_last hvalue (hothers.trans (skipSpace_cons rfl rest))
  | cons next items ih =>
      obtain ⟨hitem, hitems⟩ := List.forall_mem_cons.mp h
      have htext : (renderItems (item :: next :: items)).toList ++ ']' :: rest =
          item.render.toList ++ ',' :: ((renderItems (next :: items)).toList ++ ']' :: rest) := by
        simp [renderItems]
      have hlength : (renderItems (item :: next :: items)).toList.length =
          item.render.toList.length + (renderItems (next :: items)).toList.length + 1 := by
        simp [renderItems]
        omega
      obtain ⟨fuel, rfl⟩ : ∃ n, fuel = n + 1 := ⟨fuel - 1, by omega⟩
      obtain ⟨others, hvalue, hothers⟩ := hitem (fuel + 1)
        (',' :: ((renderItems (next :: items)).toList ++ ']' :: rest)) (by omega)
        (endsNumeral_cons (by decide) _)
      have hrest := @ih next hitems fuel (by omega)
      rw [htext]
      exact takeItems_next hvalue (hothers.trans (skipSpace_cons rfl _)) hrest

theorem takeMembers_render {member : String × Json} {members : List (String × Json)}
    (h : ∀ pair ∈ member :: members, pair.2.Reads) {fuel : Nat}
    (hfuel : 2 * (renderMembers (member :: members)).toList.length ≤ fuel) (rest : List Char) :
    takeMembers (fuel + 2) ((renderMembers (member :: members)).toList ++ '\x7d' :: rest) =
      some (memberSources (member :: members), rest) := by
  induction members generalizing member fuel with
  | nil =>
      have hmember := h member List.mem_cons_self
      have htext : (renderMembers [member]).toList ++ '\x7d' :: rest =
          (renderString member.1).toList ++ ':' :: (member.2.render.toList ++ '\x7d' :: rest) := by
        simp [renderMembers]
      have hlength : member.2.render.toList.length ≤ (renderMembers [member]).toList.length := by
        simp [renderMembers]
        omega
      obtain ⟨others, hvalue, hothers⟩ := hmember fuel ('\x7d' :: rest) (by omega)
        (endsNumeral_cons (by decide) rest)
      rw [htext]
      exact takeMembers_last member.1 hvalue (hothers.trans (skipSpace_cons rfl rest))
  | cons next members ih =>
      obtain ⟨hmember, hmembers⟩ := List.forall_mem_cons.mp h
      have htext : (renderMembers (member :: next :: members)).toList ++ '\x7d' :: rest =
          (renderString member.1).toList ++ ':' :: (member.2.render.toList ++
            ',' :: ((renderMembers (next :: members)).toList ++ '\x7d' :: rest)) := by
        simp [renderMembers]
      have hlength : member.2.render.toList.length +
          (renderMembers (next :: members)).toList.length + 2 ≤
            (renderMembers (member :: next :: members)).toList.length := by
        simp [renderMembers]
        omega
      obtain ⟨fuel, rfl⟩ : ∃ n, fuel = n + 1 := ⟨fuel - 1, by omega⟩
      obtain ⟨others, hvalue, hothers⟩ := hmember (fuel + 1)
        (',' :: ((renderMembers (next :: members)).toList ++ '\x7d' :: rest)) (by omega)
        (endsNumeral_cons (by decide) _)
      have hrest := @ih next hmembers fuel (by omega)
      rw [htext]
      exact takeMembers_next member.1 hvalue (hothers.trans (skipSpace_cons rfl _)) hrest

theorem reads_of_numbers {json : Json} (h : ∀ n ∈ json.numbers, n.Reads) : json.Reads := by
  induction json using valueInduction with
  | null => exact fun fuel rest _ _ => ⟨rest, rfl, rfl⟩
  | bool b => exact fun fuel rest _ _ => ⟨rest, by cases b <;> rfl, rfl⟩
  | number n => exact fun fuel rest _ hrest => (h n (by simp [numbers])).takeValue hrest fuel
  | string s => exact fun fuel rest _ _ => ⟨rest, takeValue_string fuel s rest, rfl⟩
  | array items ih =>
      intro fuel rest hfuel _
      refine ⟨rest, ?_, rfl⟩
      have hitems : ∀ item ∈ items, item.Reads := by
        intro item hitem
        exact ih item hitem fun n hn => h n (mem_itemNumbers.mpr ⟨item, hitem, hn⟩)
      cases items with
      | nil => rfl
      | cons item items =>
          have htext : (Json.array (item :: items)).render.toList ++ rest =
              '[' :: ((renderItems (item :: items)).toList ++ ']' :: rest) := by
            simp [render]
          have hlength : (Json.array (item :: items)).render.toList.length =
              (renderItems (item :: items)).toList.length + 2 := by
            simp [render]
          obtain ⟨fuel, rfl⟩ : ∃ n, fuel = n + 2 := ⟨fuel - 2, by omega⟩
          rw [htext]
          exact takeValue_array (takeItems_render hitems (by omega) rest)
  | object members ih =>
      intro fuel rest hfuel _
      refine ⟨rest, ?_, rfl⟩
      have hmembers : ∀ member ∈ members, member.2.Reads := by
        intro member hmember
        exact ih member hmember fun n hn => h n (mem_memberNumbers.mpr ⟨member, hmember, hn⟩)
      cases members with
      | nil => rfl
      | cons member members =>
          have htext : (Json.object (member :: members)).render.toList ++ rest =
              '\x7b' :: ((renderMembers (member :: members)).toList ++ '\x7d' :: rest) := by
            simp [render]
          have hlength : (Json.object (member :: members)).render.toList.length =
              (renderMembers (member :: members)).toList.length + 2 := by
            simp [render]
          obtain ⟨fuel, rfl⟩ : ∃ n, fuel = n + 2 := ⟨fuel - 2, by omega⟩
          have htake := @takeMembers_render member members hmembers fuel (by omega) rest
          obtain ⟨cs, hcs⟩ := toList_renderMembers member.1 member.2 members
          rw [hcs] at htext htake
          rw [htext]
          exact takeValue_object htake

-- A printed value is read as what it says.
theorem Source.read_render {json : Json} (h : ∀ n ∈ json.numbers, n.Reads) :
    Source.read json.render = some json.source := by
  have hends : EndsNumeral [] := by rintro _ _ ⟨⟩
  obtain ⟨others, htake, hothers⟩ := reads_of_numbers h (2 * json.render.toList.length + 1) []
    (by omega) hends
  have hempty : (skipSpace others).isEmpty = true := by
    rw [hothers]
    rfl
  rw [List.append_nil] at htake
  simp [Source.read, htake, hempty]

theorem sound_takeValue_succ {fuel : Nat}
    (hitems : ∀ cs items rest, takeItems fuel cs = some (items, rest) →
      ∀ item ∈ items, Source.Sound item)
    (hmembers : ∀ cs members rest, takeMembers fuel cs = some (members, rest) →
      ∀ member ∈ members, Source.Sound member.2) {cs : List Char} {source : Source}
    (h : takeValue (fuel + 1) cs = some (source, rest)) : source.Sound := by
  unfold takeValue at h
  split at h
  · cases h
    exact .null
  · cases h
    exact .bool true
  · cases h
    exact .bool false
  · obtain ⟨_, _, hresult⟩ := Option.map_eq_some_iff.mp h
    cases hresult
    exact .string _
  · split at h
    · cases h
      exact .array [] (by simp)
    · obtain ⟨⟨items, behind⟩, htake, hresult⟩ := Option.map_eq_some_iff.mp h
      cases hresult
      exact .array items (hitems _ _ _ htake)
  · split at h
    · cases h
      exact .object [] (by simp)
    · obtain ⟨⟨members, behind⟩, htake, hresult⟩ := Option.map_eq_some_iff.mp h
      cases hresult
      exact .object members (hmembers _ _ _ htake)
  · obtain ⟨_, _, hresult⟩ := Option.map_eq_some_iff.mp h
    cases hresult
    exact .number _ fun n hn => sound_of_number? hn

theorem sound_takeItems_succ {fuel : Nat}
    (hvalue : ∀ cs source rest, takeValue fuel cs = some (source, rest) → Source.Sound source)
    (hitems : ∀ cs items rest, takeItems fuel cs = some (items, rest) →
      ∀ item ∈ items, Source.Sound item) {cs : List Char} {items : List Source}
    (h : takeItems (fuel + 1) cs = some (items, rest)) : ∀ item ∈ items, item.Sound := by
  rw [takeItems] at h
  obtain ⟨⟨item, behind⟩, hitem, hnext⟩ := Option.bind_eq_some_iff.mp h
  have hsound := hvalue _ _ _ hitem
  dsimp only at hnext
  split at hnext
  · obtain ⟨⟨others, last⟩, hothers, hresult⟩ := Option.bind_eq_some_iff.mp hnext
    cases hresult
    exact List.forall_mem_cons.mpr ⟨hsound, hitems _ _ _ hothers⟩
  · cases hnext
    simpa using hsound
  · cases hnext

theorem sound_takeMembers_succ {fuel : Nat}
    (hvalue : ∀ cs source rest, takeValue fuel cs = some (source, rest) → Source.Sound source)
    (hmembers : ∀ cs members rest, takeMembers fuel cs = some (members, rest) →
      ∀ member ∈ members, Source.Sound member.2) {cs : List Char}
    {members : List (Option String × Source)}
    (h : takeMembers (fuel + 1) cs = some (members, rest)) :
    ∀ member ∈ members, Source.Sound member.2 := by
  rw [takeMembers] at h
  split at h
  · obtain ⟨⟨name, behind⟩, -, hcolon⟩ := Option.bind_eq_some_iff.mp h
    dsimp only at hcolon
    split at hcolon
    · obtain ⟨⟨value, behind⟩, htake, hnext⟩ := Option.bind_eq_some_iff.mp hcolon
      have hsound := hvalue _ _ _ htake
      dsimp only at hnext
      split at hnext
      · obtain ⟨⟨others, last⟩, hothers, hresult⟩ := Option.bind_eq_some_iff.mp hnext
        cases hresult
        exact List.forall_mem_cons.mpr ⟨hsound, hmembers _ _ _ hothers⟩
      · cases hnext
        simpa using hsound
      · cases hnext
    · cases hcolon
  · cases h

-- The numbers of what is read are sound.
theorem Source.sound_of_read {text : String} {source : Source}
    (h : Source.read text = some source) : source.Sound := by
  have htakes (fuel : Nat) :
      (∀ cs source rest, takeValue fuel cs = some (source, rest) → Source.Sound source) ∧
      (∀ cs items rest, takeItems fuel cs = some (items, rest) → ∀ item ∈ items, Source.Sound item) ∧
      (∀ cs members rest, takeMembers fuel cs = some (members, rest) →
        ∀ member ∈ members, Source.Sound member.2) := by
    induction fuel with
    | zero => refine ⟨?_, ?_, ?_⟩ <;> rintro _ _ _ ⟨⟩
    | succ fuel ih =>
        obtain ⟨hvalue, hitems, hmembers⟩ := ih
        exact ⟨fun _ _ _ => sound_takeValue_succ hitems hmembers,
          fun _ _ _ => sound_takeItems_succ hvalue hitems,
          fun _ _ _ => sound_takeMembers_succ hvalue hmembers⟩
  unfold Source.read at h
  dsimp only at h
  split at h
  · rename_i htake
    split at h
    · obtain rfl := Option.some.inj h
      exact (htakes _).1 _ _ _ htake
    · cases h
  · cases h

end Sieve.Json
