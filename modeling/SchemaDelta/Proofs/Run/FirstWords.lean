import SchemaDelta.Proofs.Text.Words
import SchemaDelta.Run.Split

/-!
# The first words of a statement

Whether a statement creates a user is told by its first two words. So a front of two words tells it
of every text that begins with this front, and one word is enough if it is another verb (`Opening`).
-/

namespace SchemaDelta.Run

open Text

/-- The word in capitals is the given one. -/
def isKeyword (keyword : String) (w : List Char) : Bool :=
  w.map Char.toUpper == keyword.toList

/-- The words begin with those that create a user. -/
def namesUser : List (List Char) → Bool
  | create :: user :: _ => isKeyword "CREATE" create && isKeyword "USER" user
  | _ => false

theorem toUpper_beq (w : List Char) (keyword : String) :
    ((String.ofList w).toUpper == keyword) = isKeyword keyword w := by
  rw [isKeyword, Bool.eq_iff_iff, beq_iff_eq, beq_iff_eq, ← String.toList_inj, String.toUpper,
    String.toList_map, String.toList_ofList]

theorem createsUser_eq (s : String) : createsUser s = namesUser (wordChars s.toList) := by
  rw [createsUser, words_eq_map]
  rcases wordChars s.toList with - | ⟨w, - | ⟨u, ws⟩⟩
  · rfl
  · rfl
  · simp only [List.map_cons, toUpper_beq]
    rfl

theorem createsUser_trim (s : String) : createsUser (trim s) = createsUser s := by
  rw [createsUser, words_trim, createsUser]

/-- The front of a statement tells whether it creates a user, whatever words follow. -/
def Opening (front : List Char) (user : Bool) : Prop :=
  ∀ ws, namesUser (wordChars front ++ ws) = user

namespace Opening

variable {front r : List Char} {user : Bool} {t : String} {c : Char}

/-- Two words are enough. -/
theorem of_two_words (hwords : 2 ≤ (wordChars front).length)
    (huser : namesUser (wordChars front) = user) : Opening front user := by
  intro ws
  rcases hfront : wordChars front with - | ⟨w, - | ⟨u, vs⟩⟩
  · simp [hfront] at hwords
  · simp [hfront] at hwords
  · rw [← huser, hfront]
    rfl

/-- One word is enough where it is another verb. -/
theorem of_verb (hword : wordChars front = [front]) (hverb : isKeyword "CREATE" front = false) :
    Opening front false := by
  intro ws
  rw [hword]
  cases ws with
  | nil => rfl
  | cons u ws => exact congrArg (· && _) hverb

/-- A blank character ends the front. -/
theorem createsUser_eq (h : Opening front user) (ht : t.toList = front ++ c :: r)
    (hc : isBlank c = true) : createsUser t = user := by
  rw [Run.createsUser_eq, ht, wordChars_append_blank hc, h]

end Opening

theorem opening_drop : Opening "DROP".toList false :=
  .of_verb (by decide) (by decide)

theorem opening_alter : Opening "ALTER".toList false :=
  .of_verb (by decide) (by decide)

theorem opening_comment : Opening "COMMENT".toList false :=
  .of_verb (by decide) (by decide)

theorem opening_declare : Opening "DECLARE".toList false :=
  .of_verb (by decide) (by decide)

theorem opening_createUser : Opening "CREATE USER".toList true :=
  .of_two_words (by decide) (by decide)

/-- The first word is the one for a user. -/
def leadsToUser (s : List Char) : Bool :=
  (wordChars s).head?.any (isKeyword "USER")

/-- A creation with modifiers between its verb and a noun that is not a user. -/
theorem opening_create {modifiers noun : List Char}
    (hgap : modifiers.head?.all isBlank = true) (hword : wordChars noun = [noun])
    (hnoun : isKeyword "USER" noun = false) :
    Opening ("CREATE".toList ++ (modifiers ++ ' ' :: noun)) (leadsToUser modifiers) := by
  have hverb : wordChars "CREATE".toList = ["CREATE".toList] := by decide
  have hwords : wordChars ("CREATE".toList ++ (modifiers ++ ' ' :: noun)) =
      "CREATE".toList :: (wordChars modifiers ++ [noun]) := by
    cases modifiers with
    | nil =>
      rw [List.nil_append, wordChars_append_blank (by decide), hverb, hword]
      rfl
    | cons c r =>
      have hc : isBlank c = true := hgap
      have hr : wordChars (c :: r) = wordChars r := wordChars_append_blank hc [] r
      rw [List.cons_append, wordChars_append_blank hc, wordChars_append_blank (by decide), hverb,
        hword, hr]
      rfl
  refine .of_two_words ?_ ?_
  · rw [hwords]
    simp
  · rw [hwords, leadsToUser]
    cases wordChars modifiers with
    | nil => exact hnoun
    | cons w ws => rfl

end SchemaDelta.Run
