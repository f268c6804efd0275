import SchemaDelta.Proofs.Clause.Partition
import SchemaDelta.Table.Clause

/-!
# Table options are phrases

Check constraints, the retention of blockchain tables, the storage of a table and the access to an
external one.
-/

namespace SchemaDelta

open Sql Text

variable {p : String → Prop} {b : Bool}

/-- The texts of a check constraint are of the class. -/
structure Check.Texts (p : String → Prop) (c : Check) : Prop where
  name : Given p c.name
  expression : p c.expression

theorem Check.texts_ofNode (hc : TextClass p) {n : Model.Check} (h : n.Texts p) {c : Check}
    (hn : Check.ofNode? n = some c) : c.Texts p := by
  obtain ⟨e, he, rfl⟩ := Option.map_eq_some_iff.1 hn
  exact ⟨h.name, hc.trim (h.expression e he).1⟩

/-- The strings of a check constraint. -/
def Check.strings (c : Check) : List String :=
  c.expression :: c.name.toList

theorem Check.Texts.strings {c : Check} (h : c.Texts p) : ∀ s ∈ c.strings, p s :=
  List.forall_mem_cons.2 ⟨h.expression, fun s hs => (h.name s (Option.mem_toList.1 hs)).1⟩

theorem Check.phrase_fragment (hc : TextClass p) {c : Check} (h : ∀ s ∈ c.strings, p s) :
    Phrase p b c.fragment.text := by
  obtain ⟨hexpression, hname⟩ := List.forall_mem_cons.1 h
  have hbody : Phrase p b ("CHECK " ++ ("(" ++ stripParens c.expression ++ ")")) :=
    .lead (by decide) (OptPhrase.given (hc.unwrap hexpression)).paren
  have hframed := Phrase.framed_left (by decide : isWord "CONSTRAINT " = true)
    (by decide : isSeparator " " = true)
    (optPhrase_quotedName hc fun s hs => hname s (Option.mem_toList.2 hs)) hbody
  rw [Check.fragment, Form.fill_checkConstraint]
  exact hframed.of_toList (by simp)

/-- The strings of a blockchain table. -/
def Model.Blockchain.strings (n : Model.Blockchain) : List String :=
  [n.tableRetention, n.rowRetention, n.hashAndFormat].reduceOption

theorem Model.Blockchain.Texts.strings {n : Model.Blockchain} (h : n.Texts p) :
    ∀ s ∈ n.strings, p s := by
  refine forall_mem_reduceOption fun o ho => ?_
  simp only [List.mem_cons, List.not_mem_nil, or_false] at ho
  rcases ho with rfl | rfl | rfl
  · exact h.tableRetention
  · exact h.rowRetention
  · exact h.hashAndFormat

theorem phrase_blockchain (hc : TextClass p) {n : Model.Blockchain} (h : ∀ s ∈ n.strings, p s)
    {t : String} (ht : n.clause? = some t) : Phrase p b t := by
  have hspaced : OptPhrase p b (spaced [n.tableRetention, n.rowRetention, n.hashAndFormat]) :=
    optPhrase_spaced hc h
  unfold Model.Blockchain.clause? at ht
  simp only at ht
  split_ifs at ht with hempty
  obtain rfl := Option.some.inj ht
  rcases hspaced with hnil | hphrase
  · rw [hnil] at hempty
    exact absurd rfl hempty
  · exact hphrase

/-- The strings of a storage. -/
def Model.Storage.strings (s : Model.Storage) : List String :=
  s.organization.toList ++ s.tablespace.toList

theorem Model.Storage.Texts.strings {s : Model.Storage} (h : s.Texts p) :
    ∀ t ∈ s.strings, p t := by
  intro t ht
  rcases List.mem_append.1 ht with ht | ht
  · exact (h.organization t (Option.mem_toList.1 ht)).1
  · exact (h.tablespace t (Option.mem_toList.1 ht)).1

theorem phrase_storage (hc : TextClass p) {s : Model.Storage} (h : ∀ t ∈ s.strings, p t) :
    Phrase p b s.clause := by
  have horganization : Phrase p b
      ("ORGANIZATION " ++ (s.organization.map String.toUpper).getD "HEAP") := by
    cases ho : s.organization with
    | none => exact .lead (by decide) (.word (by decide))
    | some o =>
      have hstring : p o := h o (by simp [Model.Storage.strings, ho])
      exact (OptPhrase.given (hc.upper hstring)).lead (by decide)
  have htablespace : Tail p b ((s.tablespace.map fun t => " TABLESPACE " ++ quote t).getD "") := by
    refine .getD fun t ht => ?_
    obtain ⟨n, hn, rfl⟩ := Option.map_eq_some_iff.1 ht
    have hstring : p n := h n (by simp [Model.Storage.strings, hn])
    exact .of_phrase (by decide) (phrase_quote hc hstring)
  have hlogging : Tail p b (if s.logging then " LOGGING" else " NOLOGGING") := by
    split_ifs
    · exact .of_phrase (by decide : isSeparator " " = true)
        (.word (by decide : isWord "LOGGING" = true))
    · exact .of_phrase (by decide : isSeparator " " = true)
        (.word (by decide : isWord "NOLOGGING" = true))
  unfold Model.Storage.clause
  simp only
  split
  · exact .word (by decide)
  · exact (horganization.append_tail htablespace).append_tail hlogging

/-! ## External tables -/

/-- The strings of a file of an external table. -/
def Model.Location.strings (l : Model.Location) : List String :=
  l.directory.toList ++ l.specifier.toList

/-- The strings of the access to an external table. -/
def Model.ExternalAccess.strings (e : Model.ExternalAccess) : List String :=
  [e.driver, e.defaultDirectory, e.formatSpec, e.subquery, e.rejectLimit].reduceOption ++
    e.locations.flatMap Model.Location.strings

theorem Model.ExternalAccess.Texts.strings {e : Model.ExternalAccess} (h : e.Texts p) :
    ∀ s ∈ e.strings, p s := by
  have hoptions : ∀ s ∈ [e.driver, e.defaultDirectory, e.formatSpec, e.subquery,
      e.rejectLimit].reduceOption, p s := by
    refine forall_mem_reduceOption fun o ho => ?_
    simp only [List.mem_cons, List.not_mem_nil, or_false] at ho
    rcases ho with rfl | rfl | rfl | rfl | rfl
    · exact h.driver
    · exact h.defaultDirectory
    · exact h.formatSpec
    · exact h.subquery
    · exact h.rejectLimit
  intro s hs
  rcases List.mem_append.1 hs with hs | hs
  · exact hoptions s hs
  · obtain ⟨l, hl, hs⟩ := List.mem_flatMap.1 hs
    rcases List.mem_append.1 hs with hs | hs
    · exact ((h.locations l hl).directory s (Option.mem_toList.1 hs)).1
    · exact ((h.locations l hl).specifier s (Option.mem_toList.1 hs)).1

theorem phrase_location {l : Model.Location} (h : ∀ s ∈ l.strings, p s) {t : String}
    (ht : l.text? = some t) : Phrase p b t := by
  obtain ⟨s, hs, rfl⟩ := Option.map_eq_some_iff.1 ht
  have hliteral : Phrase p b (literal s) :=
    phrase_literal (h s (by simp [Model.Location.strings, hs]))
  cases hd : l.directory with
  | none =>
    rw [Option.map_none, Option.getD_none, String.empty_append]
    exact hliteral
  | some d =>
    have hstring : p d := h d (by simp [Model.Location.strings, hd])
    rw [Option.map_some, Option.getD_some]
    rcases OptPhrase.given (b := b) hstring with rfl | hphrase
    · exact .lead (by decide) hliteral
    · exact .glue hphrase (by decide) hliteral

section

variable {e : Model.ExternalAccess} (h : ∀ s ∈ e.strings, p s)

include h

theorem given_external {o : Option String}
    (ho : o ∈ [e.driver, e.defaultDirectory, e.formatSpec, e.subquery, e.rejectLimit]) {s : String}
    (hs : s ∈ o) : p s := by
  refine h s (List.mem_append_left _ (List.reduceOption_mem_iff.2 ?_))
  rwa [← Option.mem_def.1 hs]

/-- The access parameters may follow. -/
theorem tail_parameters : Tail p b e.parameters := by
  unfold Model.ExternalAccess.parameters
  split
  · exact .empty
  · split
    · next t ht =>
      have htext : OptPhrase p b t := by
        cases hq : e.subquery with
        | some q =>
          rw [hq] at ht
          obtain rfl : "USING CLOB " ++ q = t := Option.some.inj ht
          exact .of_phrase ((OptPhrase.given (given_external h (by simp) hq)).lead (by decide))
        | none =>
          rw [hq] at ht
          exact .given (given_external h (by simp) ht)
      have htail := Tail.of_phrase (by decide : isSeparator " " = true)
        (htext.lead (by decide : isWord "ACCESS PARAMETERS " = true))
      exact htail.of_toList (by simp)
    · exact .empty

theorem phrase_external (hc : TextClass p) {t : String} (ht : e.clause? = some t) :
    Phrase p b t := by
  obtain ⟨driver, hdriver, rfl⟩ := Option.map_eq_some_iff.1 ht
  have htype : Phrase p b ("TYPE " ++ driver.toUpper) :=
    (OptPhrase.given (hc.upper (given_external h (by simp) hdriver))).lead (by decide)
  have hdirectory :
      Tail p b ((e.defaultDirectory.map fun d => " DEFAULT DIRECTORY " ++ d).getD "") := by
    refine .getD fun s hs => ?_
    obtain ⟨d, hd, rfl⟩ := Option.map_eq_some_iff.1 hs
    have hwords := (OptPhrase.given (b := b) (given_external h (by simp) hd)).lead
      (by decide : isWord "DEFAULT DIRECTORY " = true)
    exact (Tail.of_phrase (by decide : isSeparator " " = true) hwords).of_toList (by simp)
  have hlimit : Phrase p b ("REJECT LIMIT " ++ e.rejectLimit.getD "UNLIMITED") := by
    cases hl : e.rejectLimit with
    | none => exact .lead (by decide) (.word (by decide))
    | some l => exact (OptPhrase.given (given_external h (by simp) hl)).lead (by decide)
  have hbody {locations : String} (hl : Tail p b locations) : Phrase p b
      ("(TYPE " ++ driver.toUpper ++
        (e.defaultDirectory.map fun d => " DEFAULT DIRECTORY " ++ d).getD "" ++ e.parameters ++
        locations ++ ") REJECT LIMIT " ++ e.rejectLimit.getD "UNLIMITED") := by
    have h := Phrase.glue (.paren (((htype.append_tail hdirectory).append_tail
      (tail_parameters h)).append_tail hl)) (by decide : isSeparator " " = true) hlimit
    exact h.of_toList (by simp)
  have hlocations : ∀ s ∈ e.locations.filterMap Model.Location.text?, Phrase p b s := by
    intro s hs
    obtain ⟨l, hl, hls⟩ := List.mem_filterMap.1 hs
    exact phrase_location (fun t ht => h t (List.mem_append_right _
      (List.mem_flatMap.2 ⟨l, hl, ht⟩))) hls
  refine hbody ?_
  split
  · exact .empty
  · next ls hne =>
    have htail := Tail.of_phrase (b := b) (by decide : isSeparator " LOCATION " = true)
      (OptPhrase.paren (.join (by decide : isSeparator ", " = true) hlocations))
    exact htail.of_toList (by simp)

end

end SchemaDelta
