import Mathlib.Data.List.Basic
import Sieve.Proofs.Resolution.Moves
import Sieve.Proofs.Schema.Conformance

namespace Sieve

variable {catalog : Catalog} {words : List String}

-- Where a path leads that goes into lists on its way: each hop leads to a list, and the rest of
-- the path starts at an element of it.
inductive Reaches (catalog : Catalog) (words : List String) :
    FieldType → List FieldPath → FieldPath → FieldType → Prop where
  | last {type last : FieldType} {path : FieldPath} (h : Leads catalog words type path last) :
      Reaches catalog words type [] path last
  | hop {type element last : FieldType} {hop path : FieldPath} {hops : List FieldPath}
      (hhop : Leads catalog words type hop (.list element))
      (hrest : Reaches catalog words element hops path last) :
      Reaches catalog words type (hop :: hops) path last

namespace Reaches

variable {type next last : FieldType} {hops : List FieldPath} {path : FieldPath}

theorem snoc {step : Step} (h : Reaches catalog words type hops path next)
    (hstep : StepLeads catalog words next step last) :
    Reaches catalog words type hops (path ++ [step]) last := by
  induction h with
  | last h => exact .last (h.snoc hstep)
  | hop hhop hrest ih => exact .hop hhop (ih hstep)

theorem mono {words' : List String} (hwords : words ⊆ words')
    (h : Reaches catalog words type hops path last) :
    Reaches catalog words' type hops path last := by
  induction h with
  | last h => exact .last (h.mono hwords)
  | hop hhop hrest ih => exact .hop (hhop.mono hwords) ih

theorem enter (h : Reaches catalog words type hops path (.list next)) :
    Reaches catalog words type (hops ++ [path]) [] next := by
  generalize hlist : FieldType.list next = list at h
  induction h with
  | last h =>
      subst hlist
      exact .hop h (.last .here)
  | hop hhop hrest ih => exact .hop hhop (ih hlist)

end Reaches

namespace Resolution

-- A walk that is at the place its type says.
def Walk.Typed (catalog : Catalog) (words : List String) (root : Nat) (w : Walk) : Prop :=
  Reaches catalog words (.object root) w.hops w.steps w.type

variable {root : Nat} {settings : Settings} {field segment : String} {w w' : Walk}

theorem Walk.Typed.start : (Walk.start root).Typed catalog words root :=
  .last .here

theorem Walk.Typed.take (h : w.Typed catalog words root) {step : Step} {type : FieldType}
    (hstep : StepLeads catalog words w.type step type) (missing : Bool) :
    (w.take step type missing).Typed catalog words root :=
  Reaches.snoc h hstep

theorem Walk.Typed.enter (h : w.Typed catalog words root) (type : FieldType)
    (htype : w.type = type) : (w.enter type).Typed catalog words root := by
  induction type generalizing w with
  | list inner ih =>
      rw [Walk.Typed, htype] at h
      rw [Walk.enter]
      exact ih (Reaches.enter h) rfl
  | _ => exact h

theorem Move.leads {next : Option String} {type last : FieldType} {step : Step}
    {missing used : Bool} (h : Move catalog segment next type step last missing used)
    (hsegment : segment ∈ words) : StepLeads catalog words type step last := by
  cases h with
  | member hfield => exact .member hfield hsegment
  | key => exact .key hsegment
  | index _ hindexer => exact .index hindexer
  | named _ hindexer => exact .index hindexer

-- One segment leads one step on, from an element where a list is reached.
theorem Walk.Typed.advance {next : Option String} {used : Bool} (h : w.Typed catalog words root)
    (hsegment : segment ∈ words)
    (hadvance : advance catalog settings field segment next w = .ok (w', used)) :
    w'.Typed catalog words root ∧ w'.steps ≠ [] := by
  obtain ⟨step, type, missing, hmove, rfl⟩ := advance_eq_ok hadvance
  exact ⟨(h.enter w.type rfl).take (hmove.leads hsegment) missing, by simp [Walk.take]⟩

theorem Walk.Typed.walk {segments : List String} (h : w.Typed catalog words root)
    (hsegments : segments ⊆ words) (hne : segments ≠ [])
    (hwalk : walk catalog settings field segments false w = .ok w') :
    w'.Typed catalog words root ∧ w'.steps ≠ [] := by
  let motive (left : List String) (w : Walk) : Prop :=
    left ⊆ words ∧ w.Typed catalog words root ∧ (left = segments ∨ w.steps ≠ [])
  obtain ⟨-, htyped, hsteps⟩ : motive [] w' := by
    refine walk_induction (fun {segment rest w w' used} hadvance hw => ?_) hwalk
      ⟨hsegments, h, .inl rfl⟩
    obtain ⟨hleft, htyped, -⟩ := hw
    rw [List.cons_subset] at hleft
    obtain ⟨hadvanced, hsteps⟩ := htyped.advance hleft.1 hadvance
    refine ⟨?_, hadvanced, .inr hsteps⟩
    cases used with
    | true => exact List.Subset.trans (List.tail_sublist rest).subset hleft.2
    | false => exact hleft.2
  exact ⟨htyped, hsteps.resolve_left hne.symm⟩

theorem notMem_of_mem_splitOn (separator : Char) (cs : List Char) :
    ∀ part ∈ cs.splitOn separator, separator ∉ part := by
  induction cs with
  | nil => simp
  | cons c cs ih =>
      rw [List.splitOn_cons_eq_if_modifyHead]
      by_cases hc : c = separator
      · simpa [hc] using ih
      · cases hparts : cs.splitOn separator with
        | nil => simp [hc]
        | cons first rest =>
            rw [hparts, List.forall_mem_cons] at ih
            simpa [hc, Ne.symm hc] using ih

theorem mem_of_mem_trim {c : Char} {cs : List Char} (h : c ∈ Text.trim cs) : c ∈ cs := by
  rw [Text.trim, Text.trimEnd, List.mem_reverse] at h
  have hstart := List.mem_reverse.mp ((List.dropWhile_sublist _).subset h)
  exact (List.dropWhile_sublist _).subset hstart

theorem dot_notMem_of_mem_segments (field : String) :
    ∀ segment ∈ segments field, '.' ∉ segment.toList := by
  intro segment hsegment hdot
  obtain ⟨cs, hcs, rfl⟩ := List.mem_map.mp hsegment
  rw [String.toList_ofList] at hdot
  exact notMem_of_mem_splitOn '.' _ cs hcs (mem_of_mem_trim hdot)

-- What a path text comes to leads through the types of the schema, by at least one step from the
-- last element.
theorem reaches_of_resolve {record : RecordType} {r : Resolution}
    (h : resolve record settings field = .ok r) :
    Reaches record.catalog (segments field) (.object record.root) r.hops r.path r.type ∧
      r.path ≠ [] := by
  obtain ⟨w, hwalk, rfl⟩ := Outcome.map_eq_ok.mp h
  exact Walk.Typed.start.walk (List.Subset.refl _) (by simp [segments]) hwalk

variable {settings' : Settings}

theorem walk_congr (huse : settings.useIndexer = settings'.useIndexer)
    (hname : settings.indexerName = settings'.indexerName) (segments : List String) (used : Bool) :
    walk catalog settings field segments used w = walk catalog settings' field segments used w := by
  induction segments generalizing used w with
  | nil => cases used <;> rfl
  | cons segment rest ih =>
      cases used with
      | true => exact ih false
      | false =>
          have hadvance : advance catalog settings field segment rest.head? w =
              advance catalog settings' field segment rest.head? w := by
            simp only [advance, indexer?, huse, hname]
          rw [walk, walk, hadvance]
          cases advance catalog settings' field segment rest.head? w with
          | error e => rfl
          | ok next => exact ih next.2

-- Settings that agree on the indexer resolve every path alike.
theorem resolve_congr {record : RecordType} (huse : settings.useIndexer = settings'.useIndexer)
    (hname : settings.indexerName = settings'.indexerName) (field : String) :
    resolve record settings field = resolve record settings' field := by
  rw [resolve, resolve, walk_congr huse hname]

end Resolution

end Sieve
