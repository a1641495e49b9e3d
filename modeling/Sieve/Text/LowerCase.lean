import Sieve.Text.CaseTable

namespace Sieve.Text

def CaseRun.covers (run : CaseRun) (c : Char) : Bool :=
  run.first ≤ c.toNat && c.toNat ≤ run.last && (c.toNat - run.first) % run.step == 0

-- The lower-case form of a character, its neighbours aside. One character has a form of two:
-- the capital i with a dot keeps the dot as a mark of its own.
def lowerChar (c : Char) : List Char :=
  if c.toNat < 0x80 then [c.toLower]
  else if c = 'İ' then ['i', '\u0307']
  else
    match caseRuns.find? (·.covers c) with
    | some run => [Char.ofNat (c.toNat - run.first + run.image)]
    | none => [c]

-- Whether a cased character comes first once the case-ignorable ones are passed over.
def startsCased (cs : List Char) : Bool :=
  match cs.dropWhile isCaseIgnorable with
  | [] => false
  | c :: _ => isCased c

-- A capital sigma after a cased character and before none ends a word.
def lowerSigma (before after : List Char) : Char :=
  if startsCased before && !startsCased after then 'ς' else 'σ'

-- Lower-cases `cs` where `before` holds what precedes it, nearest character first.
def lowerAfter (before : List Char) : List Char → List Char
  | [] => []
  | c :: rest =>
    if c = 'Σ' then lowerSigma before rest :: lowerAfter (c :: before) rest
    else lowerChar c ++ lowerAfter (c :: before) rest

def lower (s : String) : String :=
  String.ofList (lowerAfter [] s.toList)

end Sieve.Text
