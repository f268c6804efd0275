import SchemaDelta.Proofs.Sql.Phrase

/-!
# Lists of phrases

Members that are joined by a separator make a phrase, and so do the members of a composite: those
that are active stay live, and the others stand in one comment, which has no comment inside because
an inactive member has none.
-/

namespace SchemaDelta.Sql

open Text

variable {p : String → Prop} {b : Bool} {sep : String}

/-- Phrases are joined to a phrase. -/
theorem Phrase.join {t : String} {ts : List String} (hsep : isSeparator sep = true)
    (h : ∀ u ∈ t :: ts, Phrase p b u) : Phrase p b (join sep (t :: ts)) := by
  induction ts generalizing t with
  | nil =>
    rw [join_singleton]
    exact h t (by simp)
  | cons u ts ih =>
    have htail : Phrase p b (Text.join sep (u :: ts)) :=
      ih fun v hv => h v (List.mem_cons_of_mem _ hv)
    exact (Phrase.glue (h t (by simp)) hsep htail).of_toList
      (by rw [join_cons_cons])

/-- Phrases are joined to a phrase, unless there is none. -/
theorem OptPhrase.join {ts : List String} (hsep : isSeparator sep = true)
    (h : ∀ u ∈ ts, Phrase p b u) : OptPhrase p b (join sep ts) := by
  cases ts with
  | nil => exact empty
  | cons t ts => exact of_phrase (.join hsep h)

/-- Texts some of which are empty may be joined by a word. -/
theorem OptPhrase.join_word {ts : List String} (hsep : isWord sep = true)
    (h : ∀ u ∈ ts, OptPhrase p b u) : OptPhrase p b (Text.join sep ts) := by
  induction ts with
  | nil => exact empty
  | cons t ts ih =>
    have htail := ih fun v hv => h v (List.mem_cons_of_mem _ hv)
    have ht := h t (by simp)
    cases ts with
    | nil =>
      rw [join_singleton]
      exact ht
    | cons u ts =>
      have heq : Text.join sep (t :: u :: ts) = t ++ (sep ++ Text.join sep (u :: ts)) := by
        rw [join_cons_cons, String.append_assoc]
      rw [heq]
      rcases ht with rfl | ht
      · rw [String.empty_append]
        exact of_phrase (htail.lead hsep)
      -- A separator at the end is a word, one in the middle separates.
      · rcases htail with htail | htail
        · rw [htail, String.append_empty]
          exact of_phrase (.trail ht hsep)
        · rw [← String.append_assoc]
          exact of_phrase (.glue ht (isSeparator_of_isWord hsep) htail)

/-- Texts that are joined are not empty if the first is not. -/
theorem join_cons_ne_empty {t : String} (ht : t ≠ "") (ts : List String) :
    join sep (t :: ts) ≠ "" := by
  cases ts with
  | nil =>
    rw [join_singleton]
    exact ht
  | cons u ts => simp [join_cons_cons, ht]

/-- Texts that are joined are empty only if there is none. -/
theorem join_eq_empty_iff {parts : List String} (h : ∀ t ∈ parts, t ≠ "") :
    join sep parts = "" ↔ parts = [] := by
  cases parts with
  | nil => simp [join]
  | cons t ts =>
    exact iff_of_false (join_cons_ne_empty (h t List.mem_cons_self) ts) (List.cons_ne_nil t ts)

/-- Texts that are not empty are joined behind a separator, and so is each of them. -/
theorem framed_join {parts : List String} (h : ∀ t ∈ parts, t ≠ "") :
    framed sep (join sep parts) "" = String.join (parts.map (sep ++ ·)) := by
  cases parts with
  | nil => rfl
  | cons t ts =>
    rw [framed_of_ne (join_cons_ne_empty (h t List.mem_cons_self) ts), String.append_empty]
    clear h
    induction ts generalizing t with
    | nil => simp [join_singleton]
    | cons u ts ih =>
      rw [join_cons_cons, List.map_cons, String.join_cons, ← ih u]
      simp only [String.append_assoc]

theorem filter_text_ne_empty {members : List Fragment} (h : ∀ m ∈ members, m.text ≠ "")
    {f : Fragment → Bool} : ∀ t ∈ (members.filter f).map Fragment.text, t ≠ "" := by
  intro t ht
  obtain ⟨m, hm, rfl⟩ := List.mem_map.1 ht
  exact h m (List.mem_filter.1 hm).1

/-- The texts of the active members, in order. -/
def liveTexts (members : List Fragment) : List String :=
  (members.filter Fragment.active).map Fragment.text

/-- The texts of the inactive members, in order. -/
def deadTexts (members : List Fragment) : List String :=
  (members.filter fun m => !m.active).map Fragment.text

/-- A composite has its live members, and then one comment with the dead ones if there are any. The
gap before the comment is left out where nothing stands in front of it. -/
theorem composite_active (members : List Fragment) (sep : String) :
    composite members sep true =
      join sep (liveTexts members) ++
        if deadTexts members = [] then ""
        else (if join sep (liveTexts members) = "" then "" else gapOf sep) ++
          commentedInline (join sep (deadTexts members)) := by
  unfold composite liveTexts deadTexts
  rw [if_neg (by decide)]
  dsimp only
  cases members.filter fun m => !m.active with
  | nil => simp
  | cons m ms =>
    dsimp only
    rw [List.map_cons, if_neg (List.cons_ne_nil _ _)]
    -- A member may be active and empty, so the test is on what is joined.
    by_cases hnone : join sep ((members.filter Fragment.active).map Fragment.text) = ""
    · rw [if_pos hnone, if_pos (String.isEmpty_iff.2 hnone), hnone, String.empty_append,
        String.empty_append]
    · rw [if_neg hnone, if_neg fun he => hnone (String.isEmpty_iff.1 he), String.append_assoc]

/-- Where no member is empty, nothing stands in front of the comment only if no member is live. -/
theorem composite_eq {members : List Fragment} (h : ∀ m ∈ members, m.text ≠ "") :
    composite members sep true =
      join sep ((members.filter Fragment.active).map Fragment.text) ++
        if (members.filter fun m => !m.active).map Fragment.text = [] then ""
        else (if (members.filter Fragment.active).map Fragment.text = [] then "" else gapOf sep) ++
          commentedInline (join sep ((members.filter fun m => !m.active).map Fragment.text)) := by
  rw [composite_active]
  simp only [liveTexts, deadTexts, join_eq_empty_iff (filter_text_ne_empty h)]

/-- A composite is empty only if it has no member. -/
theorem composite_eq_empty_iff {members : List Fragment} (h : ∀ m ∈ members, m.text ≠ "") :
    composite members sep true = "" ↔ members = [] := by
  refine ⟨fun he => List.eq_nil_iff_forall_not_mem.2 fun m hm => ?_, ?_⟩
  · rw [composite_eq h, String.append_eq_empty_iff,
      join_eq_empty_iff (filter_text_ne_empty h)] at he
    cases hoff : m.active with
    | true =>
      have hmem : m.text ∈ (members.filter Fragment.active).map Fragment.text :=
        List.mem_map_of_mem (List.mem_filter.2 ⟨hm, hoff⟩)
      rw [he.1] at hmem
      cases hmem
    | false =>
      have hmem : m.text ∈ (members.filter fun m => !m.active).map Fragment.text :=
        List.mem_map_of_mem (List.mem_filter.2 ⟨hm, by simp [hoff]⟩)
      rw [if_neg (List.ne_nil_of_mem hmem)] at he
      simp [commentedInline] at he
  · rintro rfl
    simp [composite, join]

/-- A text stands in the texts that it is joined with. -/
theorem isInfix_join {t : String} {ts : List String} (h : t ∈ ts) :
    t.toList <:+: (Text.join sep ts).toList := by
  induction ts with
  | nil => cases h
  | cons u ts ih =>
    cases ts with
    | nil =>
      obtain rfl := List.mem_singleton.1 h
      rw [join_singleton]
    | cons v ts =>
      rw [join_cons_cons, String.toList_append, String.toList_append]
      rcases List.mem_cons.1 h with rfl | h
      · rw [List.append_assoc]
        exact (List.prefix_append _ _).isInfix
      · exact (ih h).trans (List.suffix_append _ _).isInfix

/-- A separator without the halves of a pair keeps joined texts free of it. -/
theorem not_pair_infix_join {a d : Char} {ts : List String} (hne : sep ≠ "") (ha : a ∉ sep.toList)
    (hd : d ∉ sep.toList) (h : ∀ t ∈ ts, ¬[a, d] <:+: t.toList) :
    ¬[a, d] <:+: (Text.join sep ts).toList := by
  induction ts with
  | nil => simp [Text.join]
  | cons t ts ih =>
    have ht := h t List.mem_cons_self
    have ih := ih fun u hu => h u (List.mem_cons_of_mem _ hu)
    cases ts with
    | nil => rwa [join_singleton]
    | cons u ts =>
      rw [join_cons_cons, String.toList_append, String.toList_append]
      exact not_pair_infix_between ht ha hd (by simpa using hne) ih

/-- Each member stands in a composite, live or in its comment. -/
theorem isInfix_composite {members : List Fragment} (hne : ∀ m ∈ members, m.text ≠ "")
    {m : Fragment} (h : m ∈ members) (sep : String) (parentActive : Bool) :
    m.text.toList <:+: (composite members sep parentActive).toList := by
  have hmem {p : Fragment → Bool} (hp : p m = true) :
      m.text ∈ (members.filter p).map Fragment.text :=
    List.mem_map_of_mem (List.mem_filter.2 ⟨h, hp⟩)
  cases parentActive with
  | false => exact isInfix_join (List.mem_map_of_mem h)
  | true =>
    rw [composite_eq hne, String.toList_append]
    cases hm : m.active with
    | true => exact (isInfix_join (hmem hm)).trans (List.prefix_append _ _).isInfix
    | false =>
      have hdead := hmem (p := fun m => !m.active) (by simp [hm])
      rw [if_neg (List.ne_nil_of_mem hdead), commentedInline, ← String.append_assoc,
        ← String.append_assoc]
      simp only [String.toList_append]
      exact ((isInfix_join hdead).trans (List.suffix_append _ _).isInfix).trans
        ((List.prefix_append _ _).isInfix.trans (List.suffix_append _ _).isInfix)

/-- A composite is a phrase: only an active parent has comments in it, and each member that is
active there may have its own. -/
theorem OptPhrase.composite {members : List Fragment} {parentActive : Bool}
    (hsep : isSeparator sep = true) (hgap : isSeparator (gapOf sep) = true)
    (h : ∀ m ∈ members, Phrase p (m.active && parentActive) m.text) :
    OptPhrase p parentActive (composite members sep parentActive) := by
  cases parentActive with
  -- The parent comments all of it, so no member has a comment.
  | false =>
    rw [composite_inactive]
    refine join hsep fun u hu => ?_
    obtain ⟨m, hm, rfl⟩ := List.mem_map.1 hu
    simpa using h m hm
  | true =>
    have hlive : OptPhrase p true
        (Text.join sep ((members.filter Fragment.active).map Fragment.text)) := by
      refine join hsep fun u hu => ?_
      obtain ⟨m, hm, rfl⟩ := List.mem_map.1 hu
      exact (h m (List.mem_filter.1 hm).1).mono (by simp)
    -- An inactive member has no comment inside, so the comment around it is not nested.
    have hdead : ∀ u ∈ (members.filter fun m => !m.active).map Fragment.text, Phrase p false u := by
      intro u hu
      obtain ⟨m, hm, rfl⟩ := List.mem_map.1 hu
      obtain ⟨hmem, hoff⟩ := List.mem_filter.1 hm
      exact (h m hmem).mono (by simpa using hoff)
    unfold Sql.composite
    simp only [Bool.not_true, Bool.false_eq_true, if_false]
    cases hoff : members.filter fun m => !m.active with
    | nil => exact hlive
    | cons m ms =>
      rw [hoff] at hdead
      have hcomment : Phrase p true
          (commentedInline (Text.join sep ((m :: ms).map Fragment.text))) :=
        .comment (.join hsep hdead)
      rcases hlive with hlive | hlive
      · simp only [hlive]
        exact of_phrase hcomment
      · have hne := hlive.ne_empty
        rw [← String.isEmpty_eq_false_iff] at hne
        simp only [hne, Bool.false_eq_true, if_false]
        exact of_phrase (.glue hlive hgap hcomment)

/-- A list of columns is a phrase, with a comment in it only if some column is active and some other
is not. -/
theorem Phrase.columnTuple {columns : List Fragment} {parentActive : Bool}
    (h : ∀ m ∈ columns, Phrase p false m.text) :
    Phrase p (parentActive && !noneActive columns) (columnTuple columns parentActive) := by
  refine OptPhrase.paren (OptPhrase.composite (by decide) (by decide) fun m hm => ?_)
  exact (h m hm).of_false

/-! ## What follows a phrase -/

/-- The text is empty, or a separator with a phrase after it. -/
def Tail (p : String → Prop) (b : Bool) (t : String) : Prop :=
  t = "" ∨ ∃ sep y, isSeparator sep = true ∧ Phrase p b y ∧ t = sep ++ y

variable {x t u : String}

/-- A tail may follow a phrase. -/
theorem Phrase.append_tail (hx : Phrase p b x) (ht : Tail p b t) : Phrase p b (x ++ t) := by
  rcases ht with rfl | ⟨sep, y, hsep, hy, rfl⟩
  · rwa [String.append_empty]
  · rw [← String.append_assoc]
    exact .glue hx hsep hy

namespace Tail

theorem empty : Tail p b "" := .inl rfl

theorem of_phrase (hsep : isSeparator sep = true) (hx : Phrase p b x) : Tail p b (sep ++ x) :=
  .inr ⟨sep, x, hsep, hx, rfl⟩

/-- A tail may be put together in another order. -/
theorem of_toList (ht : Tail p b t) (heq : u.toList = t.toList) : Tail p b u := by
  rwa [String.toList_inj.1 heq]

/-- Tails may follow one another. -/
theorem append (ht : Tail p b t) (hu : Tail p b u) : Tail p b (t ++ u) := by
  rcases ht with rfl | ⟨sep, y, hsep, hy, rfl⟩
  · rwa [String.empty_append]
  · rw [String.append_assoc]
    exact .of_phrase hsep (hy.append_tail hu)

/-- A tail that may be missing. -/
theorem getD {o : Option String} (h : ∀ t ∈ o, Tail p b t) : Tail p b (o.getD "") := by
  cases o with
  | none => exact empty
  | some t => exact h t rfl

end Tail

end SchemaDelta.Sql
