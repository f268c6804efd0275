import SchemaDelta.Proofs.Activation.Rendering

/-!
# Deactivation keeps the text

A deactivated entity is written as the statements of the fully activated entity, each of them
commented out. Nothing is lost: without the comments the same statements are back.
-/

namespace SchemaDelta

open Sql Text

/-! ## Reading a comment back -/

/-- The text inside a comment that is a line or a block. -/
def Sql.uncommented (text : String) : String :=
  match text.toList with
  | '-' :: '-' :: ' ' :: r => String.ofList r
  | '/' :: '*' :: '\n' :: r => String.ofList (r.take (r.length - 3))
  | _ => text

/-- A text that is commented out is read back. -/
theorem Sql.uncommented_commented (text : String) : uncommented (commented text) = text := by
  unfold commented
  by_cases h : text.toList.contains '\n' = true
  -- The end of a block is three characters long.
  · have hs : ("/*\n" ++ text ++ "\n*/").toList =
        '/' :: '*' :: '\n' :: (text.toList ++ ['\n', '*', '/']) := by simp
    rw [if_pos h, uncommented, hs]
    simp
  · have hs : ("-- " ++ text).toList = '-' :: '-' :: ' ' :: text.toList := by simp
    rw [if_neg h, uncommented, hs]
    simp

/-! ## Muted statements -/

/-- The statements `off` are the live statements `on`, in the same order, each commented out. -/
structure Muted (on off : List Fragment) : Prop where
  live : on.map Fragment.write = on.map Fragment.text
  commented : off.map Fragment.write = on.map fun u => commented u.text
  /-- The script of `off` has these comments and nothing else. -/
  script : statementsText off = join "\n\n" (on.map fun u => Sql.commented u.text)
  back : off.map (fun u => uncommented u.write) = on.map Fragment.text

/-- Live sealed statements and their muted copies. -/
theorem muted_map {on : List Fragment} (hon : ∀ u ∈ on, u.active = true)
    (hs : ∀ u ∈ on, Sealed u.text) : Muted on (on.map Fragment.muted) where
  live := List.map_congr_left fun u hu => by rw [Fragment.write, hon u hu, if_pos rfl]
  commented := by
    rw [List.map_map]
    rfl
  script := by
    have hall : ((on.map Fragment.muted).filter fun u => !u.isBlank) = on.map Fragment.muted := by
      rw [List.filter_eq_self]
      intro u hu
      obtain ⟨v, hv, rfl⟩ := List.mem_map.1 hu
      simp [Fragment.isBlank, Fragment.muted, (hs v hv).blank_eq_false]
    rw [statementsText, hall, List.map_map]
    rfl
  back := by
    rw [List.map_map]
    exact List.map_congr_left fun u _ => uncommented_commented u.text

/-- All statements of a table, with its indexes, are sealed. -/
theorem Table.sealed_units (t : Table) : ∀ u ∈ t.createUnits ++ t.indexUnits, Sealed u.text :=
  (Step.createTable t).sealed_units

/-- A table of the model has no foreign keys in its body. -/
theorem Table.foreignKeys_ofNode {n : Model.Table} {ctx : Context} {t : Table}
    (h : Table.ofNode? n ctx = some t) : t.foreignKeys = [] := by
  obtain ⟨name, -, rfl⟩ := Option.map_eq_some_iff.1 h
  rfl

/-- A deactivated table is written as the commented statements of the activated one. -/
theorem Table.muted {t : Table} (hk : t.foreignKeys = []) :
    Muted (t.activated.createUnits ++ t.activated.indexUnits)
      (t.deactivated.createUnits ++ t.deactivated.indexUnits) := by
  rw [createUnits_deactivated hk, indexUnits_deactivated, ← List.map_append]
  refine muted_map ?_ t.activated.sealed_units
  intro u hu
  rcases List.mem_append.1 hu with hu | hu
  · exact t.createUnits_active u hu
  · exact t.indexUnits_active u hu

/-- A deactivated view is written as the commented statements of the activated one. -/
theorem View.muted (v : View) : Muted v.activated.createUnits v.deactivated.createUnits := by
  rw [createUnits_deactivated]
  exact muted_map v.createUnits_active v.activated.sealed_createUnits

/-- A deactivated type is written as the commented statement of the activated one. -/
theorem UserType.muted (t : UserType) :
    Muted [t.activated.createUnit] [t.deactivated.createUnit] := by
  rw [createUnit_deactivated]
  refine @muted_map [t.activated.createUnit] ?_ ?_
  · intro u hu
    rw [List.mem_singleton.1 hu]
    rfl
  · intro u hu
    rw [List.mem_singleton.1 hu]
    exact t.activated.sealed_createUnit

/-- Deactivation keeps the text: a node that has a name, itself deactivated and with members of any
activation, is written as the statements of the same node activated with all its members, each
commented out. -/
theorem deactivated_muted (ctx : Context) :
    (∀ t : Model.Table, t.tableName?.isSome → ∃ on off,
      Table.ofNode? t.activated ctx = some on ∧ Table.ofNode? t.deactivated ctx = some off ∧
        Muted (on.createUnits ++ on.indexUnits) (off.createUnits ++ off.indexUnits)) ∧
    (∀ v : Model.View, (v.code <|> v.name).isSome → ∃ on off,
      View.ofNode? v.activated ctx = some on ∧ View.ofNode? v.deactivated ctx = some off ∧
        Muted on.createUnits off.createUnits) ∧
    ∀ t : Model.UserType, t.typeName?.isSome → ∃ on off,
      UserType.ofNode? t.activated ctx = some on ∧ UserType.ofNode? t.deactivated ctx = some off ∧
        Muted [on.createUnit] [off.createUnit] := by
  refine ⟨fun t ht => ?_, fun v hv => ?_, fun t ht => ?_⟩
  · obtain ⟨name, hname⟩ := Option.isSome_iff_exists.1 ht
    obtain ⟨e, he⟩ : ∃ e, Table.ofNode? t ctx = some e := by simp [Table.ofNode?, hname]
    refine ⟨e.activated, e.deactivated, ?_, ?_, Table.muted (Table.foreignKeys_ofNode he)⟩
    · rw [Table.ofNode?_activated, he, Option.map_some]
    · rw [Table.ofNode?_deactivated, he, Option.map_some]
  · obtain ⟨name, hname⟩ := Option.isSome_iff_exists.1 hv
    obtain ⟨e, he⟩ : ∃ e, View.ofNode? v ctx = some e := by simp [View.ofNode?, hname]
    refine ⟨e.activated, e.deactivated, ?_, ?_, e.muted⟩
    · rw [View.ofNode?_activated, he, Option.map_some]
    · rw [View.ofNode?_deactivated, he, Option.map_some]
  · obtain ⟨name, hname⟩ := Option.isSome_iff_exists.1 ht
    obtain ⟨e, he⟩ : ∃ e, UserType.ofNode? t ctx = some e := by simp [UserType.ofNode?, hname]
    refine ⟨e.activated, e.deactivated, ?_, ?_, e.muted⟩
    · rw [UserType.ofNode?_activated, he, Option.map_some]
    · rw [UserType.ofNode?_deactivated, he, Option.map_some]

/-- A table with a live and a dead column, both in its key and its index; a view that shows both; a
type that has both. -/
theorem deactivated_muted_mixed :
    let fields : Model.Fields := [("a", { active := true }), ("b", { active := false })]
    let refs : List Model.ColumnRef := [{ name := some "b" }, { name := some "a" }]
    let table : Model.Table :=
      { name := some "t", fields := fields, primaryKeys := [{ primary := refs }]
        indexes := [{ name := some "i", keys := refs, active := false }]
        description := some "both" }
    let view : Model.View :=
      { name := some "v", keys := [.column { name := some "b", active := false },
        .column { name := some "a" }] }
    let type : Model.UserType := { name := some "o", fields := fields }
    (table.tableName?.isSome ∧ (view.code <|> view.name).isSome ∧ type.typeName?.isSome) ∧
      (∃ on off, Table.ofNode? table.activated {} = some on ∧
        Table.ofNode? table.deactivated {} = some off ∧
        Muted (on.createUnits ++ on.indexUnits) (off.createUnits ++ off.indexUnits)) ∧
      (∃ on off, View.ofNode? view.activated {} = some on ∧
        View.ofNode? view.deactivated {} = some off ∧ Muted on.createUnits off.createUnits) ∧
      ∃ on off, UserType.ofNode? type.activated {} = some on ∧
        UserType.ofNode? type.deactivated {} = some off ∧
        Muted [on.createUnit] [off.createUnit] := by
  intro fields refs table view type
  exact ⟨⟨rfl, rfl, rfl⟩, (deactivated_muted {}).1 table rfl, (deactivated_muted {}).2.1 view rfl,
    (deactivated_muted {}).2.2 type rfl⟩

end SchemaDelta
