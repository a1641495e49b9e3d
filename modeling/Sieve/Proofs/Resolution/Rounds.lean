import Mathlib.Data.List.Forall2
import Mathlib.Logic.Relation
import Sieve.Proofs.Resolution.Typing

-- The resolution of a path text in rounds, which come to an end and use up every segment just once.
namespace Sieve

-- The segments of a path text that a step stands for. A key of an indexer may have the name of the
-- indexer in front.
inductive Step.StandsFor : Step → List String → Prop where
  | member (name : String) : StandsFor (.member name) [name]
  | key (name : String) : StandsFor (.key name) [name]
  | index (indexer key : String) : StandsFor (.index indexer key) [key]
  | named (indexer key : String) : StandsFor (.index indexer key) [indexer, key]

-- The steps of a path stand for segments in order, with nothing between them.
def FieldPath.StandsFor (path : FieldPath) (segments : List String) : Prop :=
  ∃ parts : List (List String), parts.flatten = segments ∧ List.Forall₂ Step.StandsFor path parts

theorem FieldPath.StandsFor.snoc {path : FieldPath} {segments part : List String} {step : Step}
    (h : path.StandsFor segments) (hstep : step.StandsFor part) :
    FieldPath.StandsFor (path ++ [step]) (segments ++ part) := by
  obtain ⟨parts, rfl, hparts⟩ := h
  refine ⟨parts ++ [part], by simp, ?_⟩
  exact List.rel_append hparts (.cons hstep .nil)

-- How many lists lie around what is in them.
def FieldType.layers : FieldType → Nat
  | list inner => inner.layers + 1
  | _ => 0

namespace Resolution

variable {catalog : Catalog} {settings : Settings} {field segment : String} {rest : List String}
  {w w' : Walk} {used : Bool}

-- The walk, one list further in.
def Walk.strip (w : Walk) (inner : FieldType) : Walk where
  hops := w.hops ++ [w.steps]
  steps := []
  type := inner
  missing := false
  passedMissing := w.passedMissing || w.missing

theorem Walk.enter_list (w : Walk) (inner : FieldType) :
    w.enter (.list inner) = (w.strip inner).enter inner := rfl

theorem Walk.enter_of_not_list (h : w.type.isCollection = false) : w.enter w.type = w := by
  cases htype : w.type with
  | list inner => simp [htype, FieldType.isCollection] at h
  | _ => rfl

-- The segments that are left and the walk that has used up the others.
abbrev Stage := List String × Walk

-- One round with a segment left. Where a list is reached, one layer of it is taken off and the
-- segments stay; elsewhere the walk goes on by a step and leaves behind the segments it stands for.
inductive Round (catalog : Catalog) (settings : Settings) (field : String) :
    Stage → Stage → Prop where
  | strip {segment : String} {rest : List String} {w : Walk} {inner : FieldType}
      (htype : w.type = .list inner) :
      Round catalog settings field (segment :: rest, w) (segment :: rest, w.strip inner)
  | advance {segment : String} {rest : List String} {w w' : Walk} {used : Bool}
      (htype : w.type.isCollection = false)
      (h : advance catalog settings field segment rest.head? w = .ok (w', used)) :
      Round catalog settings field (segment :: rest, w) (if used then rest.tail else rest, w')

-- The stages that cannot go on, and why.
inductive Refused (catalog : Catalog) (settings : Settings) (field : String) :
    Stage → RuleError → Prop where
  | intro {segment : String} {rest : List String} {w : Walk} {e : RuleError}
      (htype : w.type.isCollection = false)
      (h : advance catalog settings field segment rest.head? w = .error e) :
      Refused catalog settings field (segment :: rest, w) e

theorem walk_cons_of_error {e : RuleError}
    (h : advance catalog settings field segment rest.head? w = .error e) :
    walk catalog settings field (segment :: rest) false w = .error e := by
  rw [walk, h]

theorem walk_cons_of_ok
    (h : advance catalog settings field segment rest.head? w = .ok (w', used)) :
    walk catalog settings field (segment :: rest) false w =
      walk catalog settings field (if used then rest.tail else rest) false w' := by
  rw [walk, h]
  cases used with
  | false => rfl
  | true => cases rest <;> rfl

theorem advance_strip {inner : FieldType} {next : Option String} (htype : w.type = .list inner) :
    advance catalog settings field segment next w =
      advance catalog settings field segment next (w.strip inner) := by
  unfold advance
  rw [htype, Walk.enter_list]
  rfl

-- A round leaves the outcome as it is.
theorem Round.walk_eq {s s' : Stage} (h : Round catalog settings field s s') :
    walk catalog settings field s.1 false s.2 = walk catalog settings field s'.1 false s'.2 := by
  cases h with
  | strip htype => rw [walk, walk, advance_strip htype]
  | advance htype h => exact walk_cons_of_ok h

-- A round uses up a segment, or takes off a layer of list and uses up none.
theorem Round.consumes_or_strips {s s' : Stage} (h : Round catalog settings field s s') :
    s'.1.length < s.1.length ∨ s'.1 = s.1 ∧ s.2.type = .list s'.2.type := by
  cases h with
  | strip htype => exact .inr ⟨rfl, htype⟩
  | @advance segment rest w w' used htype h =>
      refine .inl (Nat.lt_succ_of_le ?_)
      cases used with
      | false => exact Nat.le_refl _
      | true => exact (List.tail_sublist rest).length_le

theorem Round.lt {s s' : Stage} (h : Round catalog settings field s s') :
    Prod.Lex (· < ·) (· < ·) (s'.1.length, s'.2.type.layers) (s.1.length, s.2.type.layers) := by
  obtain hconsumes | ⟨hsame, hlist⟩ := h.consumes_or_strips
  · exact .left _ _ hconsumes
  · rw [hsame, hlist]
    exact .right _ (Nat.lt_succ_self _)

theorem wellFounded_round : WellFounded fun s' s => Round catalog settings field s s' :=
  Subrelation.wf (fun h => h.lt)
    (InvImage.wf (fun s : Stage => (s.1.length, s.2.type.layers))
      (Prod.lex Nat.lt_wfRel Nat.lt_wfRel).wf)

abbrev Rounds (catalog : Catalog) (settings : Settings) (field : String) : Stage → Stage → Prop :=
  Relation.ReflTransGen (Round catalog settings field)

-- From every stage the rounds lead to one with no segment left, or to one that is refused.
theorem exists_rounds (s : Stage) :
    (∃ w, Rounds catalog settings field s ([], w)) ∨
      ∃ last e, Rounds catalog settings field s last ∧ Refused catalog settings field last e := by
  have hround : WellFounded fun s' s => Round catalog settings field s s' := wellFounded_round
  induction s using hround.induction with
  | _ s ih =>
      have hnext {s' : Stage} (h : Round catalog settings field s s') :=
        (ih s' h).imp (Exists.imp fun _ => Relation.ReflTransGen.head h)
          (Exists.imp fun _ => Exists.imp fun _ => And.imp_left (Relation.ReflTransGen.head h))
      obtain ⟨segments, w⟩ := s
      cases segments with
      | nil => exact .inl ⟨w, .refl⟩
      | cons segment rest =>
          cases htype : w.type with
          | list inner => exact hnext (.strip htype)
          | _ =>
              have hlist : w.type.isCollection = false := by rw [htype]; rfl
              cases h : Resolution.advance catalog settings field segment rest.head? w with
              | ok next => exact hnext (.advance hlist h)
              | error e => exact .inr ⟨_, e, .refl, .intro hlist h⟩

theorem Rounds.walk_eq {s s' : Stage} (h : Rounds catalog settings field s s') :
    walk catalog settings field s.1 false s.2 = walk catalog settings field s'.1 false s'.2 := by
  induction h with
  | refl => rfl
  | tail _ hround ih => exact ih.trans hround.walk_eq

theorem Refused.walk_eq {s : Stage} {e : RuleError} (h : Refused catalog settings field s e) :
    walk catalog settings field s.1 false s.2 = .error e := by
  obtain ⟨_, h⟩ := h
  exact walk_cons_of_error h

theorem walk_eq_ok_iff {s : Stage} :
    walk catalog settings field s.1 false s.2 = .ok w ↔
      Rounds catalog settings field s ([], w) := by
  refine ⟨fun h => ?_, fun h => h.walk_eq.trans (by rw [walk])⟩
  obtain ⟨last, hrounds⟩ | ⟨last, e, hrounds, hrefused⟩ := exists_rounds s
  · have hlast := h.symm.trans (hrounds.walk_eq.trans (by rw [walk]))
    cases hlast
    exact hrounds
  · have := h.symm.trans (hrounds.walk_eq.trans hrefused.walk_eq)
    cases this

theorem walk_eq_error_iff {s : Stage} {e : RuleError} :
    walk catalog settings field s.1 false s.2 = .error e ↔
      ∃ last, Rounds catalog settings field s last ∧ Refused catalog settings field last e := by
  refine ⟨fun h => ?_, fun ⟨last, hrounds, hrefused⟩ => hrounds.walk_eq.trans hrefused.walk_eq⟩
  obtain ⟨w, hrounds⟩ | ⟨last, e', hrounds, hrefused⟩ := exists_rounds s
  · have := h.symm.trans (walk_eq_ok_iff.mpr hrounds)
    cases this
  · have hlast := h.symm.trans (hrounds.walk_eq.trans hrefused.walk_eq)
    cases hlast
    exact ⟨last, hrounds, hrefused⟩

-- The steps of all hops and those since the last list stand for the segments that are used up.
def Stage.Accounted (segments : List String) (s : Stage) : Prop :=
  ∃ passed, passed ++ s.1 = segments ∧ FieldPath.StandsFor (s.2.hops.flatten ++ s.2.steps) passed

theorem Move.standsFor {step : Step} {type last : FieldType} {missing : Bool}
    (h : Move catalog segment rest.head? type step last missing used) :
    ∃ part, step.StandsFor part ∧ part ++ (if used then rest.tail else rest) = segment :: rest := by
  cases h with
  | member => exact ⟨_, .member segment, rfl⟩
  | key => exact ⟨_, .key segment, rfl⟩
  | @index _ name => exact ⟨_, .index name segment, rfl⟩
  | @named _ name key _ _ _ hname hnext =>
      subst hname
      refine ⟨_, .named segment key, ?_⟩
      rw [if_pos rfl, List.cons_append, List.cons_append, List.nil_append,
        List.cons_head?_tail hnext]

theorem Round.accounted {segments : List String} {s s' : Stage}
    (h : Round catalog settings field s s') (hs : s.Accounted segments) :
    s'.Accounted segments := by
  obtain ⟨passed, hpassed, hsteps⟩ := hs
  cases h with
  | strip => exact ⟨passed, hpassed, by simpa [Walk.strip] using hsteps⟩
  | @advance segment rest w w' used htype h =>
      obtain ⟨step, type, missing, hmove, rfl⟩ := advance_eq_ok h
      obtain ⟨part, hpart, hrest⟩ := hmove.standsFor
      refine ⟨passed ++ part, ?_, ?_⟩
      · rw [List.append_assoc, hrest, hpassed]
      · rw [Walk.enter_of_not_list htype]
        simpa [Walk.take] using hsteps.snoc hpart

theorem Rounds.accounted {segments : List String} {s s' : Stage}
    (h : Rounds catalog settings field s s') (hs : s.Accounted segments) :
    s'.Accounted segments := by
  induction h with
  | refl => exact hs
  | tail _ hround ih => exact hround.accounted ih

theorem standsFor_of_rounds {root : Nat} {segments : List String}
    (h : Rounds catalog settings field (segments, .start root) ([], w)) :
    FieldPath.StandsFor (w.hops.flatten ++ w.steps) segments := by
  have hstart : Stage.Accounted segments (segments, .start root) := ⟨[], rfl, [], rfl, .nil⟩
  obtain ⟨passed, hpassed, hsteps⟩ := h.accounted hstart
  rw [List.append_nil] at hpassed
  rwa [← hpassed]

-- Resolving comes to an end on every schema, and the steps that a path text comes to, hop after
-- hop, stand for all of its segments in order. Every hop leads to a list.
theorem resolve_uses_segments (record : RecordType) (settings : Settings) (field : String) :
    (∀ s s', Round record.catalog settings field s s' →
      s'.1.length < s.1.length ∨ s'.1 = s.1 ∧ s.2.type = .list s'.2.type) ∧
    (WellFounded fun s' s => Round record.catalog settings field s s') ∧
    (∀ r, resolve record settings field = .ok r ↔
      ∃ w, Rounds record.catalog settings field (segments field, .start record.root) ([], w) ∧
        w.finish = r) ∧
    (∀ e, resolve record settings field = .error e ↔
      ∃ last, Rounds record.catalog settings field (segments field, .start record.root) last ∧
        Refused record.catalog settings field last e) ∧
    ∀ r, resolve record settings field = .ok r →
      FieldPath.StandsFor (r.hops.flatten ++ r.path) (segments field) ∧
        Reaches record.catalog (segments field) (.object record.root) r.hops r.path r.type := by
  refine ⟨fun s s' h => h.consumes_or_strips, wellFounded_round, fun r => ?_, fun e => ?_,
    fun r h => ⟨?_, (reaches_of_resolve h).1⟩⟩
  · rw [resolve, Outcome.map_eq_ok]
    exact exists_congr fun w => and_congr_left' (walk_eq_ok_iff (s := (_, _)))
  · rw [resolve, Outcome.map_eq_error]
    exact walk_eq_error_iff (s := (_, _))
  · obtain ⟨w, hwalk, rfl⟩ := Outcome.map_eq_ok.mp h
    exact standsFor_of_rounds (walk_eq_ok_iff.mp hwalk)

private def chests : RecordType :=
  ⟨[⟨"Chest", [("drawers", .list (.list (.object 0))), ("labels", .map .dynamic)],
    some ("Item", .object 0)⟩], 0⟩

-- A chest in a drawer of a chest, and from it by the name of the indexer and without.
private def nested : String := "drawers. drawers .Item.drawers.left.labels.left"

private def nestedLabel : Resolution where
  hops := [[.member "drawers"], [], [.member "drawers"], []]
  path := [.index "Item" "drawers", .index "Item" "left", .member "labels", .key "left"]
  type := .dynamic
  nullable := true

theorem nested_uses_segments :
    resolve chests { useIndexer := true } nested = .ok nestedLabel ∧
      FieldPath.StandsFor (nestedLabel.hops.flatten ++ nestedLabel.path)
        ["drawers", "drawers", "Item", "drawers", "left", "labels", "left"] := by
  have hresolve : resolve chests { useIndexer := true } nested = .ok nestedLabel := by
    decide +kernel
  have hsegments : segments nested =
      ["drawers", "drawers", "Item", "drawers", "left", "labels", "left"] := by decide +kernel
  obtain ⟨-, -, -, -, huses⟩ := resolve_uses_segments chests { useIndexer := true } nested
  rw [← hsegments]
  exact ⟨hresolve, (huses nestedLabel hresolve).1⟩

end Resolution

end Sieve
