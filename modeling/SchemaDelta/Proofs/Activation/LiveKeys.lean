import Mathlib.Data.List.Flatten
import Mathlib.Data.List.Perm.Subperm
import SchemaDelta.Proofs.Clause.View
import SchemaDelta.Proofs.Json.Strings
import SchemaDelta.Proofs.Sql.Live
import SchemaDelta.Proofs.Sql.Names
import SchemaDelta.Proofs.Text.Words

/-!
# Views with deactivated keys

A deactivated key of a view is in a comment behind the live ones, but its table is among those after
`FROM`. So what is left of the view without its comments is the view without its deactivated keys
only where the tables are the same: `View.live_words_iff`.
-/

namespace SchemaDelta

open Sql Text

/-! ## The view without its deactivated keys -/

/-- An expression is live, and a column is if it is active. -/
def Model.ViewKey.active : Model.ViewKey → Bool
  | expression _ => true
  | column c => c.active

/-- The view without its deactivated keys. -/
def Model.View.live (n : Model.View) : Model.View :=
  { n with keys := n.keys.filter Model.ViewKey.active }

/-- An expression is live, and a column is if it is active. -/
def ViewKey.active : ViewKey → Bool
  | expression _ => true
  | column _ _ _ active => active

theorem ViewKey.active_ofNode? {n : Model.ViewKey} {k : ViewKey} (h : ofNode? n = some k) :
    k.active = n.active := by
  cases n with
  | expression s =>
    obtain ⟨t, -, rfl⟩ := Option.map_eq_some_iff.1 h
    rfl
  | column c =>
    obtain ⟨name, -, rfl⟩ := Option.map_eq_some_iff.1 h
    rfl

theorem ViewKey.active_fragment (k : ViewKey) (schema : Option String) :
    (k.fragment schema).active = k.active := by
  cases k <;> rfl

namespace View

/-- The view without its deactivated keys. -/
def live (v : View) : View :=
  { v with keys := v.keys.filter ViewKey.active }

/-- The node without its deactivated keys describes the view without them. -/
theorem ofNode?_live (n : Model.View) (ctx : Context) :
    ofNode? n.live ctx = (ofNode? n ctx).map live := by
  have hkeys : (n.keys.filter Model.ViewKey.active).filterMap ViewKey.ofNode? =
      (n.keys.filterMap ViewKey.ofNode?).filter ViewKey.active := by
    rw [List.filterMap_filter, List.filter_filterMap]
    refine List.filterMap_congr fun k _ => ?_
    cases hk : ViewKey.ofNode? k with
    | none => simp
    | some key =>
      rw [Option.filter_some, ViewKey.active_ofNode? hk]
  simp only [ofNode?, Option.map_map]
  refine Option.map_congr fun name _ => ?_
  simp only [Function.comp, live, Model.View.live, hkeys]

/-! ## The text of a view -/

variable {v : View}

/-- The live keys in the list of the query. -/
def liveTexts (v : View) : List String :=
  (v.keys.filter ViewKey.active).map fun k => (k.fragment v.schema).text

/-- The text that creates a view whose keys are all live, up to its tables. -/
def front (v : View) : String :=
  v.opening ++ "\n\tAS " ++ ("SELECT " ++ join ",\n\t\t" v.liveTexts)

/-- The tables of a view behind their word, if there are any. -/
def fromText (v : View) : String :=
  framed "\n\tFROM " (join ", " v.sources) ""

theorem createText_eq_keyQuery (h : v.selectStatement = none) :
    v.createText = v.opening ++ "\n\tAS " ++ ("SELECT " ++
      composite (v.keys.map (ViewKey.fragment v.schema)) ",\n\t\t" v.active ++ v.fromText) := by
  rw [createText_eq_opening, h, Option.getD_none, keyQuery, Form.fill_viewSelect, fromText]

/-- The live members of the list. -/
theorem filter_active_fragments (v : View) :
    ((v.keys.map (ViewKey.fragment v.schema)).filter Fragment.active).map Fragment.text =
      v.liveTexts := by
  have hactive : Fragment.active ∘ ViewKey.fragment v.schema = ViewKey.active :=
    funext fun k => k.active_fragment v.schema
  rw [liveTexts, List.filter_map, hactive, List.map_map]
  rfl

/-- A view without deactivated keys is written with nothing between its keys and its tables. -/
theorem createText_live (hactive : v.active = true) (h : v.selectStatement = none) :
    v.live.createText = v.front ++ v.live.fromText := by
  have hmembers : ∀ m ∈ v.live.keys.map (ViewKey.fragment v.schema), m.active = true := by
    intro m hm
    obtain ⟨k, hk, rfl⟩ := List.mem_map.1 hm
    rw [k.active_fragment]
    exact (List.mem_filter.1 hk).2
  have hlist : composite (v.live.keys.map (ViewKey.fragment v.schema)) ",\n\t\t" true =
      join ",\n\t\t" v.liveTexts := by
    rw [composite_of_active hmembers, List.map_map]
    rfl
  have hopening : v.live.opening = v.opening := rfl
  have hschema : v.live.schema = v.schema := rfl
  have hliveActive : v.live.active = true := hactive
  rw [createText_eq_keyQuery (v := v.live) h, hschema, hliveActive, hlist, hopening, front]
  simp only [String.append_assoc]

/-- What is left of a view without its comments has blank characters between its live keys and the
tables of all of them. -/
theorem reads_createText {p : String → Prop} (hc : TextClass p) (htexts : v.Texts p)
    (hp : ∀ t, p t → CommentFree t.toList) (hactive : v.active = true)
    (h : v.selectStatement = none) :
    ∃ gap : String, (∀ c ∈ gap.toList, isBlank c = true) ∧
      Reads v.createText (v.front ++ gap ++ v.fromText) := by
  have hphrase : ∀ m ∈ v.keys.map (ViewKey.fragment v.schema), Phrase p false m.text := by
    intro m hm
    obtain ⟨k, hk, rfl⟩ := List.mem_map.1 hm
    exact k.phrase_fragment hc (htexts.keys k hk) htexts.schema
  have hsources : OptPhrase p false (join ", " v.sources) := by
    refine .join (by decide) fun s hs => ?_
    obtain ⟨k, hk, hks⟩ := List.mem_filterMap.1 (mem_firstUses.1 hs)
    exact k.phrase_source hc (htexts.keys k hk) htexts.schema hks
  have hlive : List.Forall₂ Reads v.liveTexts v.liveTexts := by
    refine List.forall₂_same.2 fun t ht => ?_
    obtain ⟨k, hk, rfl⟩ := List.mem_map.1 ht
    exact .of_phrase hp (hphrase _ (List.mem_map_of_mem (List.mem_filter.1 hk).1))
  rw [← v.filter_active_fragments] at hlive
  obtain ⟨gap, hgap, hlist⟩ : ∃ gap : String, (∀ c ∈ gap.toList, isBlank c = true) ∧
      Reads (composite (v.keys.map (ViewKey.fragment v.schema)) ",\n\t\t" true)
        (join ",\n\t\t" v.liveTexts ++ gap) := by
    have hreads := Reads.composite (g := ",\n\t\t") (by decide) (by decide)
      (fun m hm => (hphrase m hm).ne_empty) hlive (fun m hm _ => hphrase m hm) hp
    rw [v.filter_active_fragments] at hreads
    refine ⟨_, List.all_eq_true.1 ?_, hreads⟩
    split_ifs
    · decide
    · simp
  have hopening : Reads v.opening v.opening := .of_phrase hp (phrase_opening hc htexts)
  have hquery := (hlist.lead (g := "SELECT ") (by decide)).append_optPhrase hp
    (g := "\n\tFROM ") (by decide) hsources
  have hall := hopening.glue (g := "\n\tAS ") (by decide) hquery
  refine ⟨gap, hgap, ?_⟩
  rw [createText_eq_keyQuery h, hactive, fromText, front]
  simpa only [String.append_assoc] using hall

/-! ## The tables -/

/-- The quotes in a list of tables are those of the tables. -/
theorem count_quote_join (ts : List String) :
    (join ", " ts).toList.count '"' = (ts.flatMap String.toList).count '"' := by
  induction ts with
  | nil => rfl
  | cons t ts ih =>
    cases ts with
    | nil => rw [join_singleton, List.flatMap_singleton]
    | cons u ts =>
      have hsep : ", ".toList.count '"' = 0 := by decide
      rw [join_cons_cons, String.toList_append, String.toList_append, List.count_append,
        List.count_append, hsep, ih, Nat.add_zero, List.flatMap_cons (x := t), List.count_append]

/-- Each table has a quote. -/
theorem quote_mem_source {t : String} (h : t ∈ v.sources) : 0 < t.toList.count '"' := by
  obtain ⟨k, -, hk⟩ := List.mem_filterMap.1 (mem_firstUses.1 h)
  unfold ViewKey.source? at hk
  split at hk
  · obtain rfl := Option.some.inj hk
    obtain ⟨r, hr⟩ := exists_toList_qualified _ v.schema
    rw [hr]
    exact List.count_pos_iff.2 List.mem_cons_self
  · cases hk

/-- The tables of the live keys are among all of them. -/
theorem sources_live_subset (v : View) : v.live.sources ⊆ v.sources := by
  intro t ht
  obtain ⟨k, hk, hkt⟩ := List.mem_filterMap.1 (mem_firstUses.1 ht)
  exact mem_firstUses.2 (List.mem_filterMap.2 ⟨k, (List.mem_filter.1 hk).1, hkt⟩)

/-- Where the lists of tables have the same words, no table is only in the longer one. -/
theorem sources_subset_of_words_eq
    (h : words (join ", " v.sources) = words (join ", " v.live.sources)) :
    v.sources ⊆ v.live.sources := by
  intro t ht
  by_contra hout
  have hcount : (join ", " v.sources).toList.count '"' =
      (join ", " v.live.sources).toList.count '"' := count_eq_of_words_eq h (by decide)
  -- The shorter list with the new table before it has no more quotes than the longer list.
  have hsub : (t :: v.live.sources).Subperm v.sources :=
    List.subperm_of_subset (List.nodup_cons.2 ⟨hout, nodup_firstUses _⟩)
      (List.cons_subset.2 ⟨ht, v.sources_live_subset⟩)
  obtain ⟨l, hperm, hl⟩ := hsub
  have hle : (l.flatMap String.toList).count '"' ≤ (v.sources.flatMap String.toList).count '"' :=
    (hl.flatMap _).count_le _
  have hpos := quote_mem_source ht
  rw [(hperm.flatMap_right _).count_eq, List.flatMap_cons, List.count_append, ← count_quote_join,
    ← count_quote_join] at hle
  omega

/-- Only an empty list of tables has no words. -/
theorem wordChars_sources_eq_nil_iff (v : View) :
    wordChars (join ", " v.sources).toList = [] ↔ join ", " v.sources = "" := by
  constructor
  · intro h
    have hcount : (join ", " v.sources).toList.count '"' = 0 :=
      count_eq_of_words_eq (t := "") (words_eq_words_iff.2 h) (by decide)
    cases hs : v.sources with
    | nil => rfl
    | cons t ts =>
      have hpos := quote_mem_source (v := v) (t := t) (by rw [hs]; exact List.mem_cons_self)
      rw [count_quote_join, hs, List.flatMap_cons, List.count_append] at hcount
      omega
  · intro h
    rw [h]
    rfl

/-- The tables stand behind their word, if there are any. -/
theorem wordChars_append_fromText (v : View) (front : List Char) :
    wordChars (front ++ v.fromText.toList) =
      wordChars front ++
        if wordChars (join ", " v.sources).toList = [] then []
        else "FROM".toList :: wordChars (join ", " v.sources).toList := by
  by_cases h : join ", " v.sources = ""
  · rw [if_pos (v.wordChars_sources_eq_nil_iff.2 h), fromText, h, framed_empty]
    simp
  · have hfrom : front ++ v.fromText.toList =
        front ++ '\n' :: ([] ++ '\t' :: ("FROM".toList ++ ' ' ::
          (join ", " v.sources).toList)) := by
      rw [fromText, framed_of_ne h]
      simp
    have hword : wordChars "FROM".toList = ["FROM".toList] := by decide
    rw [if_neg fun hnil => h (v.wordChars_sources_eq_nil_iff.1 hnil), hfrom,
      wordChars_append_blank (by decide), wordChars_append_blank (by decide),
      wordChars_append_blank (by decide), hword]
    rfl

/-- Two texts that differ in their tables and in blank characters before them have the same words if
the tables have. -/
theorem words_fromText_iff {w : View} {gap : String} (hgap : ∀ c ∈ gap.toList, isBlank c = true) :
    words (v.front ++ gap ++ v.fromText) = words (v.front ++ w.fromText) ↔
      words (join ", " v.sources) = words (join ", " w.sources) := by
  rw [words_eq_words_iff, words_eq_words_iff]
  simp only [String.toList_append]
  rw [wordChars_append_fromText, wordChars_append_fromText, wordChars_append_of_blank _ hgap,
    List.append_cancel_left_eq]
  constructor
  · intro h
    split_ifs at h with hv hw hw
    · rw [hv, hw]
    · exact (List.cons.inj h).2
  · intro h
    rw [h]

/-- What is left of the creation of an active view without its comments, and the creation of the
view without its deactivated keys: both have the live keys and then the tables, those of all keys in
one and those of the live keys in the other. So they have the same words if and only if the lists of
tables have, and then each table that is named is one of a live key. -/
theorem live_words_iff {u : Json} {n : Model.View} {name : String}
    (hread : Model.View.read? u = some n) (hactive : n.active = true)
    (hname : (n.code <|> n.name) = some name) (hselect : n.selectStatement.bind trimmed? = none)
    (hfree : ∀ s ∈ u.strings, CommentFree s.toList) (ctx : Context)
    (hschema : ∀ s ∈ ctx.schema, CommentFree s.toList) :
    ∃ v gap, ofNode? n ctx = some v ∧ ofNode? n.live ctx = some v.live ∧
      v.createUnits.head? = some ⟨guarded v.createText v.ifNotExist nameInUse, true⟩ ∧
      (∀ c ∈ gap, isBlank c = true) ∧
      liveChars v.createText.toList = v.front.toList ++ gap ++ v.fromText.toList ∧
      v.live.createText.toList = v.front.toList ++ v.live.fromText.toList ∧
      (words (String.ofList (liveChars v.createText.toList)) = words v.live.createText ↔
        words (join ", " v.sources) = words (join ", " v.live.sources)) ∧
      (words (String.ofList (liveChars v.createText.toList)) = words v.live.createText →
        v.sources ⊆ v.live.sources) := by
  obtain ⟨v, hv⟩ : ∃ v, ofNode? n ctx = some v := by simp [ofNode?, hname]
  have hparts : v.active = true ∧ v.selectStatement = none := by
    obtain ⟨m, -, rfl⟩ := Option.map_eq_some_iff.1 hv
    exact ⟨hactive, hselect⟩
  obtain ⟨hon, hquery⟩ := hparts
  have htexts : v.Texts fun s => CommentFree s.toList :=
    texts_ofNode textClass_of_commentFree
      (Model.View.texts_read? Json.grants_commentFree hfree hread) hschema hv
  obtain ⟨gap, hgap, hreads⟩ :=
    reads_createText textClass_of_commentFree htexts (fun _ hs => hs) hon hquery
  have hlive : ofNode? n.live ctx = some v.live := by rw [ofNode?_live, hv, Option.map_some]
  have htext := hreads.liveChars_eq
  have hcreate := createText_live hon hquery
  have hiff : words (String.ofList (liveChars v.createText.toList)) = words v.live.createText ↔
      words (join ", " v.sources) = words (join ", " v.live.sources) := by
    rw [htext, String.ofList_toList, hcreate, words_fromText_iff hgap]
  refine ⟨v, gap.toList, hv, hlive, ?_, hgap, ?_, ?_, hiff, fun h => ?_⟩
  · rw [createUnits, hon, List.head?_cons]
  · rw [htext, String.toList_append, String.toList_append]
  · rw [hcreate, String.toList_append]
  · exact sources_subset_of_words_eq (hiff.1 h)

/-- A deactivated key of a table that a live key has as well. -/
theorem live_words_of_one_table :
    ∃ u n v, Model.View.read? u = some n ∧ n.active = true ∧
      (∀ s ∈ u.strings, CommentFree s.toList) ∧ ofNode? n {} = some v ∧
      ofNode? n.live {} = some v.live ∧
      v.createText = "CREATE VIEW \"v\"\n\tAS SELECT \"t\".\"a\"\n\t\t/* \"t\".\"b\" */\n" ++
        "\tFROM \"t\"" ∧
      v.live.createText = "CREATE VIEW \"v\"\n\tAS SELECT \"t\".\"a\"\n\tFROM \"t\"" ∧
      words (String.ofList (liveChars v.createText.toList)) = words v.live.createText := by
  let u : Json := .object [("name", .string "v"), ("keys", .array
    [.object [("name", .string "a"), ("tableName", .string "t")],
      .object [("name", .string "b"), ("tableName", .string "t"), ("isActivated", .bool false)]])]
  have hfree : ∀ s ∈ u.strings, CommentFree s.toList := by decide +kernel
  obtain ⟨v, gap, hv, hlive, -, -, -, -, hiff, -⟩ :=
    live_words_iff (u := u) rfl rfl rfl rfl hfree {} (by simp)
  cases hv
  refine ⟨u, _, _, rfl, rfl, hfree, rfl, hlive, ?_, ?_, hiff.2 ?_⟩
  · decide +kernel
  · decide +kernel
  · decide +kernel

/-- A deactivated key of a table of its own. The table stands in what is left without the
comments. -/
theorem dead_key_joins_its_table :
    ∃ u n v, Model.View.read? u = some n ∧ n.active = true ∧
      (∀ s ∈ u.strings, CommentFree s.toList) ∧ ofNode? n {} = some v ∧
      ofNode? n.live {} = some v.live ∧ v.selectStatement = none ∧
      v.keys.map ViewKey.active = [true, false] ∧
      liveChars v.createText.toList =
        "CREATE VIEW \"v\"\n\tAS SELECT \"t\".\"a\"\n\t\t\n\tFROM \"t\", \"u\"".toList ∧
      v.live.createText = "CREATE VIEW \"v\"\n\tAS SELECT \"t\".\"a\"\n\tFROM \"t\"" ∧
      words (String.ofList (liveChars v.createText.toList)) ≠ words v.live.createText := by
  let u : Json := .object [("name", .string "v"), ("keys", .array
    [.object [("name", .string "a"), ("tableName", .string "t")],
      .object [("name", .string "b"), ("tableName", .string "u"), ("isActivated", .bool false)]])]
  refine ⟨u, _, _, rfl, rfl, ?_, rfl, rfl, rfl, rfl, ?_, ?_, ?_⟩
  · decide +kernel
  · decide +kernel
  · decide +kernel
  · decide +kernel

end View

end SchemaDelta
