import Mathlib.Data.List.Nodup
import SchemaDelta.Proofs.Delta.Projection
import SchemaDelta.Proofs.Json.Without

/-!
# What a role can change

The entries of a role are written over those of its node one by one, and the keys `properties`,
`role` and `compMod` are keys like any other in both. What comes out is told key by key
(`Overlays`). The change of an item is read from the node itself and the columns from the entry that
no role is written over, so both outlive every replacement of the role (`SameFields`); the schema is
read from the overlaid node, so there the role has the first word.
-/

namespace SchemaDelta

open Json (Entries)

/-! ## Keys of entries -/

namespace Json.Entries

/-- The keys, in order. -/
def keys (r : Entries) : List String :=
  r.map Prod.fst

/-- Each key stands once, as in every object of a document. -/
def Distinct (r : Entries) : Prop :=
  r.keys.Nodup

instance (r : Entries) : Decidable r.Distinct :=
  inferInstanceAs (Decidable r.keys.Nodup)

@[simp]
theorem keys_cons (e : String × Json) (r : Entries) : keys (e :: r) = e.1 :: keys r := rfl

/-- A key without an entry has no value. -/
theorem value?_eq_none {key : String} {r : Entries} (h : key ∉ r.keys) : r.value? key = none := by
  refine List.lookup_eq_none_iff.2 fun e he => ?_
  have hne : key ≠ e.1 := fun heq => h (List.mem_map.2 ⟨e, he, heq.symm⟩)
  simpa using hne

/-- A key that is present keeps its place, and a new one goes to the end. -/
theorem keys_insert (key : String) (v : Json) (r : Entries) :
    (Entries.insert key v r).keys = if key ∈ r.keys then r.keys else r.keys ++ [key] := by
  induction r with
  | nil => rfl
  | cons e r ih =>
    obtain ⟨k, w⟩ := e
    by_cases hk : k = key
    · simp [insert, hk]
    · have hne : key ≠ k := Ne.symm hk
      by_cases hmem : key ∈ keys r <;> simp [insert, hk, hne, hmem, ih]

end Json.Entries

/-! ## The overlay, key by key -/

/-- The node with the role laid over it: the fields of the entity are the node's, every other key
has the role's value if it has one there and else the node's, and the new keys stand behind the
node's. -/
structure Overlays (node role merged : Entries) : Prop where
  properties : merged.value? "properties" = node.value? "properties"
  value : ∀ key, key ≠ "properties" → merged.value? key = (role.value? key).or (node.value? key)
  keys : merged.keys = node.keys ++ role.keys.filter fun k => k ≠ "properties" ∧ k ∉ node.keys

/-- An entry of the role comes before the one of the node. It is the last write to its key, since
the role holds no other entry with the key. -/
theorem value?_overlay {node role : Entries} (hrole : role.Distinct) {key : String}
    (hkey : key ≠ "properties") :
    (overlay node role).value? key = (role.value? key).or (node.value? key) := by
  induction role generalizing node with
  | nil => rfl
  | cons e role ih =>
    obtain ⟨hnew, hrest⟩ := List.nodup_cons.1 hrole
    rw [overlay_cons, ih hrest, Entries.value?_cons]
    by_cases he : key = e.1
    · subst he
      rw [if_neg hkey, if_pos rfl, Entries.value?_eq_none hnew, Entries.value?_insert_self]
      rfl
    · rw [if_neg he]
      split_ifs
      · rfl
      · rw [Entries.value?_insert_of_ne he]

/-- The keys of the node stay first, in their order; the new keys of the role follow in theirs. -/
theorem keys_overlay {node role : Entries} (hrole : role.Distinct) :
    (overlay node role).keys =
      node.keys ++ role.keys.filter fun k => k ≠ "properties" ∧ k ∉ node.keys := by
  induction role generalizing node with
  | nil => exact (List.append_nil _).symm
  | cons e role ih =>
    obtain ⟨hnew, hrest⟩ := List.nodup_cons.1 hrole
    rw [overlay_cons, ih hrest, Entries.keys_cons, List.filter_cons]
    by_cases hkey : e.1 = "properties"
    · simp [hkey]
    · by_cases hmem : e.1 ∈ node.keys
      · simp [hkey, hmem, Entries.keys_insert]
      · -- The later keys of the role are not the one that has just been added.
        have hfilter : ((Entries.keys role).filter fun k =>
              k ≠ "properties" ∧ k ∉ node.keys ++ [e.1]) =
            (Entries.keys role).filter fun k => k ≠ "properties" ∧ k ∉ node.keys := by
          refine List.filter_congr fun k hk => ?_
          have hne : k ≠ e.1 := fun heq => hnew (heq ▸ hk)
          simp [hne]
        rw [if_neg hkey, Entries.keys_insert, if_neg hmem, hfilter]
        simp [hkey, hmem]

theorem overlays {node role : Entries} (hrole : role.Distinct) :
    Overlays node role (overlay node role) where
  properties := value?_overlay_properties node role
  value _ hkey := value?_overlay hrole hkey
  keys := keys_overlay hrole

/-! ## Items -/

/-- The entries that are laid over a node: none unless its role is an object. -/
def Json.Entries.role (node : Entries) : Entries :=
  match node.value "role" with
  | .object role => role
  | _ => []

namespace Item

theorem withRole_eq_overlay (key : String) (node : Entries) :
    withRole ⟨key, .object node⟩ = .object (overlay node node.role) := by
  cases hrole : Entries.value "role" node <;> simp [withRole, Entries.role, hrole, overlay]

/-- The schema of an item is read from the marker of its role if there is one, and else from the
marker of the node. -/
theorem schema?_of_distinct (key : String) {node : Entries} (hrole : node.role.Distinct) :
    schema? ⟨key, .object node⟩ =
      (Model.EntityMark.ofEntries? (if (node.role.value? "compMod").isSome then node.role
        else node)).bind Model.EntityMark.keyspaceName := by
  rw [schema?, withRole_eq_overlay, markOf?_object]
  congr 1
  rw [Model.EntityMark.ofEntries?, Model.EntityMark.ofEntries?, Entries.value, Entries.value,
    value?_overlay hrole (by decide)]
  cases hmark : node.role.value? "compMod" <;> simp [hmark]

/-! ## Replacing the role -/

section SameFields

variable {α β : Type} {key : String} {r s : Entries}

/-- Both items give an entity of the kind that is read, with the same change and with the same
part. -/
def Alike (read? : Json → Option α) (part : α → β) (i j : Item) : Prop :=
  ∃ c d, i.entity? read? = some c ∧ j.entity? read? = some d ∧ c.change = d.change ∧
    part c.node = part d.node

/-- The two items have the same change and the same fields, whatever category they are listed in.
Views and schemas have no fields. -/
structure SameFields (i j : Item) : Prop where
  change : i.change = j.change
  table : Alike Model.Table.read? Model.Table.fields i j
  view : Alike Model.View.read? (fun _ => ()) i j
  userType : Alike Model.UserType.read? Model.UserType.fields i j
  schema : Alike Model.Schema.read? (fun _ => ()) i j

/-- The change of an item is read past its role. -/
theorem change_of_agreeBut_role (h : Entries.AgreeBut "role" r s) :
    change ⟨key, .object r⟩ = change ⟨key, .object s⟩ := by
  rw [change, change, markOf?_object, markOf?_object, Model.EntityMark.ofEntries?,
    Model.EntityMark.ofEntries?, h "compMod" (by decide)]

/-- What a reader takes from the fields of an entity is the same in two nodes that differ in their
roles. -/
theorem alike_of_agreeBut_role {read? : Json → Option α} {part : α → β} (fields : Json → β)
    (hread : ∀ r : Entries, ∃ n, read? (.object r) = some n ∧ part n = fields (r.value "properties"))
    (h : Entries.AgreeBut "role" r s) :
    Alike read? part ⟨key, .object r⟩ ⟨key, .object s⟩ := by
  obtain ⟨v, hv, hrv⟩ := withRole_object (i := ⟨key, .object r⟩) rfl
  obtain ⟨w, hw, hsw⟩ := withRole_object (i := ⟨key, .object s⟩) rfl
  obtain ⟨m, hm, hpart⟩ := hread v
  obtain ⟨n, hn, hpart'⟩ := hread w
  refine ⟨_, _, by rw [entity?, hv, hm, Option.map_some], by rw [entity?, hw, hn, Option.map_some],
    change_of_agreeBut_role h, ?_⟩
  rw [hpart, hpart', hrv, hsw, h "properties" (by decide)]

theorem sameFields_of_agreeBut_role (h : Entries.AgreeBut "role" r s) :
    SameFields ⟨key, .object r⟩ ⟨key, .object s⟩ where
  change := change_of_agreeBut_role h
  table := alike_of_agreeBut_role (Json.table Model.Field.read?) (fun _ => ⟨_, rfl, rfl⟩) h
  view := alike_of_agreeBut_role (fun _ => ()) (fun _ => ⟨_, rfl, rfl⟩) h
  userType := alike_of_agreeBut_role (Json.table Model.Field.read?) (fun _ => ⟨_, rfl, rfl⟩) h
  schema := alike_of_agreeBut_role (fun _ => ()) (fun _ => ⟨_, rfl, rfl⟩) h

end SameFields

/-- **A role touches neither the columns nor the change.** The node of an item is overlaid key by
key, apart from its fields, so the schema is the one that the role names as soon as it has a marker;
and whatever is put in the place of the role, each kind of entity that the item is read as has the
same change, and the same columns or attributes. -/
theorem role_frame (key : String) (node : Entries) :
    (node.role.Distinct →
      (∃ merged, withRole ⟨key, .object node⟩ = .object merged ∧
        Overlays node node.role merged) ∧
      ∀ {α : Type} (read? : Json → Option α) (d : Changed α),
        entity? read? ⟨key, .object node⟩ = some d →
          d.schema = (Model.EntityMark.ofEntries? (if (node.role.value? "compMod").isSome
            then node.role else node)).bind Model.EntityMark.keyspaceName) ∧
    ∀ v, SameFields ⟨key, .object node⟩ ⟨key, .object (Entries.insert "role" v node)⟩ := by
  refine ⟨fun hrole => ⟨⟨_, withRole_eq_overlay key node, overlays hrole⟩, fun read? d hd => ?_⟩,
    fun v => sameFields_of_agreeBut_role (Entries.agreeBut_insert "role" v node)⟩
  obtain ⟨n, -, rfl⟩ := Option.map_eq_some_iff.1 hd
  exact schema?_of_distinct key hrole

/-- A role with fields, a role and a marker of its own: the schema and the name come from it, the
column and the change do not. -/
theorem role_frame_sales :
    let node : Entries :=
      [("properties", .object [("a", .object [("type", .string "numeric")])]),
        ("compMod", .object [("created", .bool true), ("keyspaceName", .string "OPS")]),
        ("role", .object
          [("collectionName", .string "orders"), ("properties", .object [("ignored", .object [])]),
            ("role", .null), ("compMod", .object [("keyspaceName", .string "SALES")])])]
    (∃ d, entity? Model.Table.read? ⟨"t1", .object node⟩ = some d ∧ d.schema = some "SALES" ∧
      d.change = .created ∧ d.node.fields.map Prod.fst = ["a"] ∧
      d.node.tableName? = some "orders") ∧
    ∀ v, SameFields ⟨"t1", .object node⟩ ⟨"t1", .object (Entries.insert "role" v node)⟩ := by
  intro node
  have hframe := role_frame "t1" node
  exact ⟨⟨_, rfl, (hframe.1 (by decide)).2 Model.Table.read? _ rfl, rfl, rfl, rfl⟩, hframe.2⟩

end Item

end SchemaDelta
