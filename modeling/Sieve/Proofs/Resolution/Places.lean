import Sieve.Evaluation
import Sieve.Proofs.Resolution.Typing

-- What a path comes to in a record, and that its resolution leads to the same places.
namespace Sieve

-- A place in a record: the type that the schema gives it, the steps to it from the record or from
-- an element of the last list on the way, and what lies there.
structure Place where
  type : FieldType
  path : FieldPath
  datum : Datum

namespace Place

def step (place : Place) (step : Step) (type : FieldType) : Place where
  type := type
  path := place.path ++ [step]
  datum := place.datum.step step

-- The elements of a list, and of the lists in it, in order. Where a list is expected and there is
-- none, there is nothing; a place of any other type stays as it is.
def spread : FieldType → FieldPath → Datum → List Place
  | .list element, _, .list items => items.flatMap fun item => spread element [] item
  | .list _, _, _ => []
  | type, path, datum => [⟨type, path, datum⟩]

def opened (place : Place) : List Place :=
  spread place.type place.path place.datum

-- Where the segments of a path lead from a place. Every list with path left over branches into its
-- elements. A segment names a member of a record or a key of a mapping, and else it is a key for
-- the indexer of the record, unless it is the name of the indexer and the key is next.
def reached (catalog : Catalog) : List String → Place → List Place
  | [], place => [place]
  | segment :: rest, place =>
    place.opened.flatMap fun place =>
      match place.type with
      | .object schema =>
        match (catalog.schema schema).field? segment, (catalog.schema schema).indexer with
        | some type, _ => reached catalog rest (place.step (.member segment) type)
        | none, some (indexer, type) =>
          match rest with
          | [] => [place.step (.index indexer segment) type]
          | key :: rest =>
            if segment == indexer then reached catalog rest (place.step (.index indexer key) type)
            else reached catalog (key :: rest) (place.step (.index indexer segment) type)
        | none, none => []
      | .map type => reached catalog rest (place.step (.key segment) type)
      | _ => []

end Place

-- Where a path text leads in a record.
def RecordType.reached (record : RecordType) (field : String) (datum : Datum) : List Place :=
  Place.reached record.catalog (Resolution.segments field) ⟨.object record.root, [], datum⟩

namespace Datum

def items : Datum → List Datum
  | list items => items
  | _ => []

-- The elements of the last of some lists, each of which lies in the elements of the one before.
def elementsAlong : List FieldPath → Datum → List Datum
  | [], datum => [datum]
  | hop :: hops, datum => (datum.walk hop).items.flatMap (elementsAlong hops)

theorem elementsAlong_concat (hops : List FieldPath) (hop : FieldPath) (datum : Datum) :
    elementsAlong (hops ++ [hop]) datum =
      (elementsAlong hops datum).flatMap fun element => (element.walk hop).items := by
  induction hops generalizing datum with
  | nil => simp [elementsAlong]
  | cons first rest ih =>
      rw [List.cons_append, elementsAlong, elementsAlong, List.flatMap_assoc]
      exact List.flatMap_congr fun item _ => ih item

theorem walk_concat (datum : Datum) (path : FieldPath) (step : Step) :
    datum.walk (path ++ [step]) = (datum.walk path).step step := by
  rw [walk, List.foldl_concat, walk]

end Datum

theorem Place.spread_list (element : FieldType) (path : FieldPath) (datum : Datum) :
    spread (.list element) path datum = datum.items.flatMap fun item => spread element [] item := by
  cases datum <;> simp [spread, Datum.items]

namespace Resolution

variable {catalog : Catalog} {settings : Settings} {field segment : String} {rest : List String}
  {w w' : Walk} {used : Bool}

-- The places in a record that a walk has come to.
def Walk.places (w : Walk) (datum : Datum) : List Place :=
  (datum.elementsAlong w.hops).map fun element => ⟨w.type, w.steps, element.walk w.steps⟩

theorem Walk.places_take (w : Walk) (step : Step) (type : FieldType) (missing : Bool)
    (datum : Datum) :
    (w.take step type missing).places datum =
      (w.places datum).map fun place => place.step step type := by
  simp [places, take, Place.step, Datum.walk_concat]

theorem Walk.places_enter (w : Walk) (type : FieldType) (htype : w.type = type) (datum : Datum) :
    (w.enter type).places datum = (w.places datum).flatMap Place.opened := by
  induction type generalizing w with
  | list element ih =>
      have hinner : ∀ missing passed,
          (Walk.mk (w.hops ++ [w.steps]) [] element missing passed).places datum =
            (datum.elementsAlong w.hops).flatMap fun outer =>
              (outer.walk w.steps).items.map fun item => ⟨element, [], item⟩ := by
        intro missing passed
        rw [places, Datum.elementsAlong_concat, List.map_flatMap]
        rfl
      rw [enter, ih _ rfl, hinner, places, List.flatMap_assoc, List.flatMap_map]
      refine List.flatMap_congr fun outer _ => ?_
      rw [Place.opened, htype, Place.spread_list, List.flatMap_map]
      rfl
  | _ =>
      simp only [enter, places, List.flatMap_map, Place.opened, htype, Place.spread]
      exact List.map_eq_flatMap

theorem Walk.type_of_mem_places {place : Place} {datum : Datum} (h : place ∈ w.places datum) :
    place.type = w.type := by
  obtain ⟨element, -, rfl⟩ := List.mem_map.mp h
  rfl

-- One segment leads from all places of a walk to all places of the walk that is further.
theorem Walk.places_advance
    (h : advance catalog settings field segment rest.head? w = .ok (w', used)) (datum : Datum) :
    (w.places datum).flatMap (Place.reached catalog (segment :: rest)) =
      (w'.places datum).flatMap (Place.reached catalog (if used then rest.tail else rest)) := by
  obtain ⟨step, type, missing, hmove, rfl⟩ := advance_eq_ok h
  have hentered := w.places_enter w.type rfl datum
  generalize w.enter w.type = entered at hmove hentered ⊢
  conv_lhs =>
    enter [1, place]
    rw [Place.reached]
  rw [← List.flatMap_assoc, ← hentered, places_take, List.flatMap_map]
  refine List.flatMap_congr fun place hplace => ?_
  have htype := type_of_mem_places hplace
  generalize entered.type = reached at hmove htype
  cases hmove with
  | member hfield => simp [htype, hfield]
  | key => simp [htype]
  | index hfield hindexer hnext =>
      cases rest with
      | nil => simp [htype, hfield, hindexer, Place.reached]
      | cons key rest =>
          have hname := hnext.resolve_left (by simp)
          simp [htype, hfield, hindexer, hname]
  | named hfield hindexer hname hnext =>
      obtain ⟨rest, rfl⟩ := List.head?_eq_some_iff.mp hnext
      subst hname
      simp [htype, hfield, hindexer]

theorem Walk.places_walk {segments : List String}
    (h : walk catalog settings field segments false w = .ok w') (datum : Datum) :
    (w.places datum).flatMap (Place.reached catalog segments) = w'.places datum := by
  let motive (left : List String) (walked : Walk) : Prop :=
    (w.places datum).flatMap (Place.reached catalog segments) =
      (walked.places datum).flatMap (Place.reached catalog left)
  have hend : motive [] w' :=
    walk_induction (fun hadvance hw => hw.trans (places_advance hadvance datum)) h rfl
  simpa [motive, Place.reached] using hend

-- The places that a resolution leads to.
def places (r : Resolution) (datum : Datum) : List Place :=
  (datum.elementsAlong r.hops).map fun element => ⟨r.type, r.path, element.walk r.path⟩

theorem reached_eq_places {record : RecordType} {r : Resolution}
    (h : resolve record settings field = .ok r) (datum : Datum) :
    record.reached field datum = r.places datum := by
  obtain ⟨w, hwalk, rfl⟩ := Outcome.map_eq_ok.mp h
  have hplaces := Walk.places_walk hwalk datum
  have hstart : (Walk.start record.root).places datum = [⟨.object record.root, [], datum⟩] := rfl
  rw [hstart, List.flatMap_singleton] at hplaces
  exact hplaces

end Resolution

namespace Datum

-- A datum that holds nothing but another one, at the end of a path.
def under (datum : Datum) : FieldPath → Datum
  | [] => datum
  | .member name :: path => record [(name, datum.under path)] []
  | .index _ key :: path => record [] [(key, datum.under path)]
  | .key name :: path => map [(name, datum.under path)]

theorem walk_under (datum : Datum) (path : FieldPath) : (datum.under path).walk path = datum := by
  induction path with
  | nil => rfl
  | cons step path ih =>
      have hstep : (datum.under (step :: path)).step step = datum.under path := by
        cases step <;> simp [under, Datum.step]
      rw [walk, List.foldl_cons, hstep]
      exact ih

-- The same, with the datum in the only element of each of some nested lists.
def within (datum : Datum) : List FieldPath → Datum
  | [] => datum
  | hop :: hops => (list [datum.within hops]).under hop

theorem elementsAlong_within (datum : Datum) (hops : List FieldPath) :
    elementsAlong hops (datum.within hops) = [datum] := by
  induction hops with
  | nil => rfl
  | cons hop hops ih => simp [elementsAlong, within, walk_under, items, ih]

end Datum

theorem Resolution.places_within (r : Resolution) (datum : Datum) :
    r.places ((datum.under r.path).within r.hops) = [⟨r.type, r.path, datum⟩] := by
  rw [places, Datum.elementsAlong_within, List.map_singleton, Datum.walk_under]

end Sieve
