import FormRules.Proofs.Scope.Occurrence
import FormRules.Proofs.Validation.Form

/-!
# Fields that are visited

A walk visits exactly the fields that are reached through no more fieldsets than there was room for,
and the room that is left at a visit is what those fieldsets have not taken.
-/

namespace FormRules

namespace Field

/-- Where a field stands that is reached through fieldsets. -/
def place (path : IssuePath) (outer : List String) (id : String) : IssuePath :=
  outer.foldl (fun path group ↦ path ++ [.key group] ++ [.key "fields"]) path ++ [.key id]

theorem place_cons (path : IssuePath) (first : String) (outer : List String) (id : String) :
    place path (first :: outer) id = place (path ++ [.key first, .key "fields"]) outer id := by
  rw [place, List.foldl_cons, List.append_assoc]
  rfl

theorem place_eq_append (path : IssuePath) (outer : List String) (id : String) :
    place path outer id = path ++ place [] outer id := by
  induction outer generalizing path with
  | nil => rfl
  | cons first outer ih =>
    rw [place_cons, place_cons, ih, ih ([] ++ _), List.nil_append, List.append_assoc]

theorem place_nil_cons (first : String) (outer : List String) (id : String) :
    place [] (first :: outer) id = .key first :: .key "fields" :: place [] outer id := by
  rw [place_cons, place_eq_append]
  rfl

/-- Fields at different places have different paths. -/
theorem place_injective {path : IssuePath} {outer outer' : List String} {id id' : String}
    (h : place path outer id = place path outer' id') : outer = outer' ∧ id = id' := by
  rw [place_eq_append, place_eq_append path outer'] at h
  replace h := List.append_cancel_left h
  induction outer generalizing outer' with
  | nil =>
    cases outer' with
    | nil =>
      injection h with segment
      injection segment with id_eq
      exact ⟨rfl, id_eq⟩
    | cons first' outer' =>
      rw [place_nil_cons] at h
      injection h with _ none
      cases none
  | cons first outer ih =>
    rw [place_nil_cons] at h
    cases outer' with
    | nil =>
      injection h with _ none
      cases none
    | cons first' outer' =>
      rw [place_nil_cons] at h
      injection h with segment rest
      injection segment with first_eq
      injection rest with _ rest
      obtain ⟨rfl, id_eq⟩ := ih rest
      exact ⟨first_eq ▸ rfl, id_eq⟩

end Field

namespace Occurrence

/-- Where the field stands if the outermost fields stand at a path. -/
def place (path : IssuePath) (o : Occurrence) : IssuePath := Field.place path o.outer o.id

/-- The visit of the field by a walk that had room for so many fieldsets at first. -/
def visit (room : Nat) (path : IssuePath) (o : Occurrence) : Visit :=
  ⟨room - o.depth, o.place path, o.field⟩

theorem place_enclose (path : IssuePath) (group : String) (o : Occurrence) :
    (o.enclose group).place path = o.place (path ++ [.key group, .key "fields"]) :=
  Field.place_cons path group o.outer o.id

theorem visit_enclose (room : Nat) (path : IssuePath) (group : String) (o : Occurrence) :
    (o.enclose group).visit (room + 1) path =
      o.visit room (path ++ [.key group, .key "fields"]) := by
  rw [visit, place_enclose, depth_enclose, Nat.add_sub_add_right]
  rfl

end Occurrence

namespace Field

variable {entries : List (String × Field)} {room : Nat} {path : IssuePath} {visit : Visit}
  {field : Field}

theorem visits_of_ne (h : field.type ≠ .fieldset) :
    field.visits room path = [⟨room, path, field⟩] := by
  obtain ⟨type, label, description, required, visible, fields⟩ := field
  unfold visits
  simp [show type ≠ .fieldset from h]

theorem visits_zero : field.visits 0 path = [⟨0, path, field⟩] := by
  obtain ⟨type, label, description, required, visible, fields⟩ := field
  unfold visits
  simp

theorem visits_succ (h : field.type = .fieldset) :
    field.visits (room + 1) path =
      ⟨room + 1, path, field⟩ :: visitsAll room (path ++ [.key "fields"]) field.fields := by
  obtain ⟨type, label, description, required, visible, fields⟩ := field
  cases h
  rfl

theorem visitsAll_eq_flatMap : visitsAll room path entries =
    entries.flatMap fun entry ↦ entry.2.visits room (path ++ [.key entry.1]) := by
  induction entries with
  | nil => rfl
  | cons entry rest ih =>
    obtain ⟨id, field⟩ := entry
    rw [visitsAll, ih, List.flatMap_cons]

/-- The walk that visits fields. -/
def visitWalk : Walk IssuePath Visit where
  all := visitsAll
  one room path id field := field.visits room (path ++ [.key id])
  own room path o := [o.visit room path]
  inside path group := path ++ [.key group, .key "fields"]
  all_eq_flatMap room path entries := visitsAll_eq_flatMap
  one_of_ne room path id field valued := visits_of_ne valued
  one_zero path id field := visits_zero
  one_succ room path id field fieldset := by
    rw [visits_succ fieldset, List.append_assoc]
    rfl
  own_enclose room path group o := by
    rw [Occurrence.visit_enclose]

/-- A walk visits the fields that it comes to, in its order. -/
theorem visitsAll_eq_map_entered (room : Nat) (path : IssuePath)
    (entries : List (String × Field)) :
    visitsAll room path entries = (entered room entries).map (Occurrence.visit room path) := by
  rw [List.map_eq_flatMap]
  exact visitWalk.all_eq_flatMap_entered room path entries

theorem Reached.mem_visitsAll {outer : List String} {id : String} {left : Nat}
    (h : Reached entries outer id field) (enough : outer.length + left = room) :
    ⟨left, place path outer id, field⟩ ∈ visitsAll room path entries := by
  have near : outer.length ≤ room := enough ▸ Nat.le_add_right _ _
  have remaining : room - outer.length = left := Nat.sub_eq_of_eq_add' enough.symm
  rw [visitsAll_eq_map_entered, ← remaining]
  exact List.mem_map.2 ⟨⟨outer, id, field⟩, mem_entered_iff.2 ⟨h, near⟩, rfl⟩

theorem exists_reached_of_mem_visitsAll (h : visit ∈ visitsAll room path entries) :
    ∃ outer id, Reached entries outer id visit.field ∧ outer.length + visit.room = room ∧
      visit.path = place path outer id := by
  rw [visitsAll_eq_map_entered] at h
  obtain ⟨o, comes, rfl⟩ := List.mem_map.1 h
  obtain ⟨reached, near⟩ := mem_entered_iff.1 comes
  exact ⟨o.outer, o.id, reached, Nat.add_sub_cancel' near, rfl⟩

end Field

end FormRules
