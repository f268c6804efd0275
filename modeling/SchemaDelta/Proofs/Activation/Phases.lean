import Mathlib.Data.List.Flatten
import SchemaDelta.Proofs.Activation.Comments
import SchemaDelta.Proofs.Script.Plan

/-!
# Activation in the phases of a script

What is about something deactivated is written as a comment in one place and live in another: it
depends on the list that the item stands in, and on nothing else. `Item.comments_block` says so for
an item, and `Script.comments_iff_added` for a whole script.
-/

namespace SchemaDelta

open Sql Text

/-! ## The statements about something deactivated -/

theorem Model.Fields.unchanged_inactive_sublist (fields : Model.Fields) :
    fields.inactive.unchanged.Sublist fields.unchanged :=
  List.filter_sublist.filter _

theorem Model.Fields.changed_inactive_sublist (fields : Model.Fields) :
    fields.inactive.changed.Sublist fields.changed :=
  List.filter_sublist.filterMap _

namespace TableSteps

/-- More steps for each name are more steps on the table. -/
theorem named_sublist {f g : String → List Step} (h : ∀ table, (f table).Sublist (g table))
    (d : Changed Model.Table) : (named f d).Sublist (named g d) := by
  unfold named
  cases name? d with
  | none => exact List.Sublist.refl _
  | some table => exact h table

variable (d : Changed Model.Table)

theorem columnAdditions_onlyInactive (release : Option String) :
    (columnAdditions release { d with node := d.node.onlyInactive }).Sublist
      (columnAdditions release d) := by
  unfold columnAdditions
  rw [named_onlyInactive]
  exact named_sublist (fun _ => (d.node.fields.unchanged_inactive_sublist.map _).map _) d

theorem columnRemovals_onlyInactive :
    (columnRemovals { d with node := d.node.onlyInactive }).Sublist (columnRemovals d) := by
  unfold columnRemovals
  rw [named_onlyInactive]
  exact named_sublist (fun _ => d.node.fields.unchanged_inactive_sublist.map _) d

theorem columnChanges_onlyInactive :
    (columnChanges { d with node := d.node.onlyInactive }).Sublist (columnChanges d) := by
  have hchanged := d.node.fields.changed_inactive_sublist
  unfold columnChanges
  rw [named_onlyInactive]
  exact named_sublist (fun _ => (hchanged.filterMap _).append (hchanged.filterMap _)) d

end TableSteps

namespace TypeSteps

/-- More steps for each name are more steps on the type. -/
theorem named_sublist {f g : String → List Step} (h : ∀ type, (f type).Sublist (g type))
    (d : Changed Model.UserType) : (named f d).Sublist (named g d) := by
  unfold named
  cases d.node.typeName? with
  | none => exact List.Sublist.refl _
  | some name =>
    cases d.node.isObject with
    | false => exact List.Sublist.refl _
    | true => exact h _

variable (d : Changed Model.UserType)

theorem attributeAdditions_onlyInactive (release : Option String) :
    (attributeAdditions release { d with node := d.node.onlyInactive }).Sublist
      (attributeAdditions release d) := by
  unfold attributeAdditions
  rw [named_onlyInactive]
  exact named_sublist (fun _ => d.node.fields.unchanged_inactive_sublist.map _) d

theorem attributeRemovals_onlyInactive :
    (attributeRemovals { d with node := d.node.onlyInactive }).Sublist (attributeRemovals d) := by
  unfold attributeRemovals
  rw [named_onlyInactive]
  exact named_sublist (fun _ => d.node.fields.unchanged_inactive_sublist.map _) d

theorem attributeChanges_onlyInactive (release : Option String) :
    (attributeChanges release { d with node := d.node.onlyInactive }).Sublist
      (attributeChanges release d) := by
  have hchanged := d.node.fields.changed_inactive_sublist
  unfold attributeChanges
  rw [named_onlyInactive]
  exact named_sublist (fun _ => (hchanged.flatMap _).append (hchanged.filterMap _)) d

end TypeSteps

namespace ItemList

variable (list : ItemList) (release : Option String)

/-- What is done to deactivated columns is done to columns. -/
theorem tableBlock_onlyInactive {d : Changed Model.Table} (h : d.change = .fields) :
    (list.tableBlock release { d with node := d.node.onlyInactive }).Sublist
      (list.tableBlock release d) := by
  cases list with
  | added => simpa only [tableBlock_eq, h] using TableSteps.columnAdditions_onlyInactive d release
  | deleted => simpa only [tableBlock_eq, h] using TableSteps.columnRemovals_onlyInactive d
  | modified => simpa only [tableBlock_eq, h] using TableSteps.columnChanges_onlyInactive d

/-- What is done to deactivated attributes is done to attributes. -/
theorem typeBlock_onlyInactive {d : Changed Model.UserType} (h : d.change = .fields) :
    (list.typeBlock release { d with node := d.node.onlyInactive }).Sublist
      (list.typeBlock release d) := by
  cases list with
  | added => simpa only [typeBlock_eq, h] using TypeSteps.attributeAdditions_onlyInactive d release
  | deleted => simpa only [typeBlock_eq, h] using TypeSteps.attributeRemovals_onlyInactive d
  | modified => simpa only [typeBlock_eq, h] using TypeSteps.attributeChanges_onlyInactive d release

/-- The statements about something deactivated are statements of the table. -/
theorem inactiveTable_sublist (d : Changed Model.Table) :
    (list.inactiveTable release d).Sublist ((list.tableBlock release d).flatMap Step.units) := by
  by_cases hadded : list = .added
  · subst hadded
    rw [← comments_tableBlock_added]
    exact List.filter_sublist
  · unfold inactiveTable
    cases d.node.active with
    | false => exact List.Sublist.refl _
    | true =>
      dsimp only
      rw [if_pos rfl]
      split
      · next h => exact (tableBlock_onlyInactive _ release h).flatMap _
      · exact absurd rfl hadded
      · exact List.nil_sublist _

/-- The statements about something deactivated are statements of the type. -/
theorem inactiveType_sublist (d : Changed Model.UserType) :
    (list.inactiveType release d).Sublist ((list.typeBlock release d).flatMap Step.units) := by
  unfold inactiveType
  cases d.node.active with
  | false => exact List.Sublist.refl _
  | true =>
    dsimp only
    rw [if_pos rfl]
    split
    · next h => exact (typeBlock_onlyInactive _ release h).flatMap _
    · exact List.nil_sublist _

end ItemList

namespace Item

variable (p : Place) (release : Option String) (i : Item)

/-- The comments of an item are its statements about something deactivated, if it stands among the
added ones, and elsewhere it has none. -/
theorem comments_block :
    comments ((i.block p release).flatMap Step.units) =
      if p.list = .added then i.inactiveUnits p release else [] := by
  obtain ⟨kind, list⟩ := p
  cases kind with
  | schema =>
    unfold inactiveUnits block
    cases i.entity? Model.Schema.read? with
    | none => cases list <;> rfl
    | some d =>
      cases list with
      | added =>
        have hactive : (Schema.ofNode d.key d.node).createUnit.active = d.node.active := rfl
        cases hd : d.node.active <;> simp [Step.units, comments, hactive, hd]
      | _ => rfl
  | table =>
    unfold inactiveUnits block
    cases i.entity? Model.Table.read? with
    | none => cases list <;> rfl
    | some d =>
      by_cases hlist : list = .added
      · subst hlist
        exact ItemList.comments_tableBlock_added release d
      · rw [if_neg hlist]
        exact ItemList.comments_tableBlock_of_ne release hlist d
  | view =>
    unfold inactiveUnits block
    cases i.entity? Model.View.read? with
    | none => cases list <;> rfl
    | some d => exact ItemList.comments_viewBlock list d
  | type =>
    unfold inactiveUnits block
    cases i.entity? Model.UserType.read? with
    | none => cases list <;> rfl
    | some d =>
      by_cases hlist : list = .added
      · subst hlist
        exact ItemList.comments_typeBlock_added release d
      · rw [if_neg hlist]
        exact ItemList.comments_typeBlock_of_ne release hlist d

/-- The statements about something deactivated are statements of the item. -/
theorem inactiveUnits_sublist :
    (i.inactiveUnits p release).Sublist ((i.block p release).flatMap Step.units) := by
  obtain ⟨kind, list⟩ := p
  cases kind with
  | schema =>
    unfold inactiveUnits
    dsimp only
    cases i.entity? Model.Schema.read? with
    | none => exact List.nil_sublist _
    | some d =>
      rw [Option.elim_some]
      split
      · exact List.nil_sublist _
      · exact List.Sublist.refl _
  | table =>
    unfold inactiveUnits block
    cases i.entity? Model.Table.read? with
    | none => exact List.nil_sublist _
    | some d => exact list.inactiveTable_sublist release d
  | view =>
    unfold inactiveUnits block
    cases i.entity? Model.View.read? with
    | none => exact List.nil_sublist _
    | some d =>
      dsimp only [Option.elim_some]
      unfold ItemList.inactiveView
      split
      · exact List.nil_sublist _
      · exact List.Sublist.refl _
  | type =>
    unfold inactiveUnits block
    cases i.entity? Model.UserType.read? with
    | none => exact List.nil_sublist _
    | some d => exact list.inactiveType_sublist release d

/-- A statement about something deactivated is a comment just where the item was added. -/
theorem active_inactiveUnits {u : Fragment} (hu : u ∈ i.inactiveUnits p release) :
    u.active = false ↔ p.list = .added := by
  have hmem := (i.inactiveUnits_sublist p release).subset hu
  have hcomments := i.comments_block p release
  by_cases hadded : p.list = .added
  · rw [if_pos hadded] at hcomments
    rw [← hcomments, mem_comments] at hu
    simp [hu.2, hadded]
  · rw [if_neg hadded] at hcomments
    refine iff_of_false (fun hactive => ?_) hadded
    have hnone : u ∈ comments ((i.block p release).flatMap Step.units) :=
      mem_comments.2 ⟨hmem, hactive⟩
    rw [hcomments] at hnone
    cases hnone

end Item

/-! ## Scripts -/

namespace Script

/-- What is about something deactivated is written as a comment just where its item was added, and
nothing else is. So a script leaves alone what is deactivated if and only if no item that was
deleted or modified has a statement about it. -/
theorem comments_iff_added (r : Json.Entries) (release : Option String) :
    ∃ d s, Delta.ofJson? (.object r) = some d ∧ ofJson (.object r) release = .ok s ∧
      s.text = join "\n\n" (s.units.map Fragment.write) ∧
      (∀ p, ∀ i ∈ d.items p, ∀ u ∈ i.inactiveUnits p release,
        u ∈ s.units ∧ (u.write = commented u.text ↔ p.list = .added)) ∧
      (∀ u ∈ s.units, u.write = commented u.text →
        ∃ p, p.list = .added ∧ ∃ i ∈ d.items p, u ∈ i.inactiveUnits p release) ∧
      ((∀ p, ∀ i ∈ d.items p, ∀ u ∈ i.inactiveUnits p release, u.write = commented u.text) ↔
        ∀ p, p.list ≠ .added → ∀ i ∈ d.items p, i.inactiveUnits p release = []) := by
  obtain ⟨d, hd⟩ : ∃ d, Delta.ofJson? (.object r) = some d := ⟨_, rfl⟩
  have hs : ofJson (.object r) release = .ok (ofDelta d release) := by rw [ofJson, hd]
  have hcomment : ∀ p, ∀ i ∈ d.items p, ∀ u ∈ i.inactiveUnits p release,
      (u.write = commented u.text ↔ p.list = .added) := by
    intro p i _ u hu
    rw [Fragment.write_eq_commented_iff]
    exact i.active_inactiveUnits p release hu
  refine ⟨d, _, hd, hs, statementsText_of_sealed (sealed_units _), ?_, ?_, ?_, ?_⟩
  · intro p i hi u hu
    have hmem := (i.inactiveUnits_sublist p release).subset hu
    exact ⟨mem_units_ofDelta.2 ⟨p, i, hi, hmem⟩, hcomment p i hi u hu⟩
  · intro u hu hwrite
    obtain ⟨p, i, hi, hblock⟩ := mem_units_ofDelta.1 hu
    have hmem := mem_comments.2 ⟨hblock, Fragment.write_eq_commented_iff.1 hwrite⟩
    rw [i.comments_block] at hmem
    split at hmem
    · next hadded => exact ⟨p, hadded, i, hi, hmem⟩
    · cases hmem
  · intro hall p hp i hi
    refine List.eq_nil_iff_forall_not_mem.2 fun u hu => ?_
    exact hp ((hcomment p i hi u hu).1 (hall p i hi u hu))
  · intro hnone p i hi u hu
    refine (hcomment p i hi u hu).2 (by_contra fun hp => ?_)
    rw [hnone p hp i hi] at hu
    cases hu

/-- A deactivated table that is deleted: its statement is live. -/
theorem deactivated_table_dropped :
    ∃ d s i e, Delta.ofJson? (.object [("entities", .object [("deleted", .object [("items", .array
        [.object [("1", .object [("name", .string "t"), ("isActivated", .bool false),
          ("compMod", .object [("deleted", .bool true)])])]])])])]) = some d ∧
      ofJson (.object [("entities", .object [("deleted", .object [("items", .array
        [.object [("1", .object [("name", .string "t"), ("isActivated", .bool false),
          ("compMod", .object [("deleted", .bool true)])])]])])])]) none = .ok s ∧
      i ∈ d.items ⟨.table, .deleted⟩ ∧ i.entity? Model.Table.read? = some e ∧
      e.node.active = false ∧ s.text = "DROP TABLE \"t\";" := by
  refine ⟨_, _, _, _, rfl, rfl, List.mem_cons_self, rfl, ?_, ?_⟩
  · decide +kernel
  · decide +kernel

end Script

end SchemaDelta
