import SchemaDelta.Proofs.Run.FirstWords
import SchemaDelta.Proofs.Run.Pieces
import SchemaDelta.Proofs.Sql.Guarded
import SchemaDelta.Proofs.Sql.Written

/-!
# Guarded statements that are run

A guarded statement goes through two parsers before it takes effect: the splitter must hand over its
block whole, without the slash, and the database must find the statement in the literal of the
block. `Run.split_guarded` says that both do, whatever quotes and semicolons the statement has; only
a blank line in it would make the splitter cut the block.
-/

namespace SchemaDelta

open Sql Text

/-- The block of a statement without a blank line has none. -/
theorem Sql.no_break_guarded {s : String} (code : Nat) (h : ¬['\n', '\n'] <:+: s.toList) :
    ¬['\n', '\n'] <:+: (guarded s true code).toList := by
  have hbare : ¬['\n', '\n'] <:+: (bareStatement s).toList := by
    obtain ⟨n, hn⟩ := exists_trimChars_eq_bareStatement s
    have hpart : (bareStatement s).toList <:+: s.toList := by
      refine List.IsInfix.trans ?_ (trimChars_isInfix _)
      rw [hn]
      exact (List.prefix_append _ _).isInfix
    exact fun hi => h (hi.trans hpart)
  rw [guarded, if_pos rfl]
  exact no_break_ifNotExists hbare code

namespace Run

/-- A block ends with `END;`. -/
theorem exists_toList_blockOf (s : String) (code : Nat) :
    ∃ r, (blockOf s code).toList = r ++ "END;".toList := by
  refine ⟨("DECLARE\nBEGIN\n\tEXECUTE IMMEDIATE " ++ literal (bareStatement s) ++
    (";\n\tEXCEPTION WHEN OTHERS THEN\n\t\tIF SQLCODE = -" ++ showNat code ++
      " THEN NULL; ELSE RAISE; END IF;\n")).toList, ?_⟩
  unfold blockOf handler
  simp

/-- A block is run without its slash. -/
theorem statement?_guarded (s : String) (code : Nat) :
    statement? (guarded s true code) = some (blockOf s code) := by
  obtain ⟨r, hr⟩ := exists_toList_blockOf s code
  have hend : (guarded s true code).toList = (r ++ "END;".toList ++ ['\n']) ++ ['/'] := by
    rw [guarded_eq_blockOf, String.toList_append, hr]
    simp
  obtain ⟨body, hbody⟩ := toList_guarded s code
  have hdeclare : (guarded s true code).toList = "DECLARE".toList ++
      '\n' :: ("BEGIN\n\tEXECUTE IMMEDIATE ".toList ++
        ((enclosed '\'' (bareStatement s).toList).toList ++
          ';' :: (body ++ "\nEND;\n/".toList))) := hbody
  have hslash : (guarded s true code).toList.getLast? = some '/' := by
    rw [hend, List.getLast?_append]
    rfl
  have hsealed : Sealed (guarded s true code) := ⟨⟨'D', _, hdeclare, by decide⟩, .inr hslash⟩
  have hsemi : (r ++ "END".toList) ++ ';' :: ['\n'] = r ++ "END;".toList ++ ['\n'] := by
    simp
  have hrun : statementOf (guarded s true code) = blockOf s code := by
    refine String.toList_inj.1 ?_
    calc (statementOf (guarded s true code)).toList
        = dropEndWhile isBlank ((r ++ "END".toList) ++ ';' :: ['\n']) := by
          unfold statementOf
          dsimp only
          rw [if_pos hslash, toList_trimEnd, String.toList_ofList, hend, List.dropLast_concat,
            hsemi]
      _ = (r ++ "END".toList) ++ dropEndWhile isBlank (';' :: ['\n']) :=
          dropEndWhile_append_cons _ _ (by decide)
      _ = (blockOf s code).toList := by
          rw [hr, show dropEndWhile isBlank [';', '\n'] = [';'] by decide]
          simp
  rw [statement?_of_sealed hsealed, opening_declare.createsUser_eq hdeclare (by decide),
    if_neg Bool.false_ne_true, hrun]

/-- A guarded statement is carried unchanged. Its literal is read as the trimmed statement without
the semicolons at its end, up to the handler, and where the statement has no blank line, the
splitter makes one statement of the block, which ends with `END;`. -/
theorem split_guarded (s : String) (code : Nat) :
    (∃ n, trimChars s.toList = (bareStatement s).toList ++ List.replicate n ';') ∧
      (bareStatement s).toList.getLast? ≠ some ';' ∧
      (afterFirst? "EXECUTE IMMEDIATE " (guarded s true code).toList).bind (readEnclosed? '\'') =
        some ((bareStatement s).toList, (handler code ++ "\n/").toList) ∧
      ∃ block, guarded s true code = block ++ "\n/" ∧ "END;".toList <:+ block.toList ∧
        (¬['\n', '\n'] <:+: s.toList → split (guarded s true code) = [block]) := by
  refine ⟨exists_trimChars_eq_bareStatement s, getLast?_bareStatement s,
    readEnclosed?_guarded s code, blockOf s code, guarded_eq_blockOf s code, ?_, fun h => ?_⟩
  · obtain ⟨r, hr⟩ := exists_toList_blockOf s code
    exact ⟨r, hr.symm⟩
  · rw [split_of_no_break (no_break_guarded code h), statement?_guarded]
    rfl

/-- A statement with quotes of its own, and with two semicolons at its end. -/
theorem split_guarded_of_comment :
    ∃ s block, s = " COMMENT ON TABLE t IS 'it''s';; " ∧
      block = "DECLARE\nBEGIN\n\tEXECUTE IMMEDIATE 'COMMENT ON TABLE t IS ''it''''s''';\n" ++
        "\tEXCEPTION WHEN OTHERS THEN\n\t\tIF SQLCODE = -955 THEN NULL; ELSE RAISE; END IF;\n" ++
        "END;" ∧
      guarded s true nameInUse = block ++ "\n/" ∧
      bareStatement s = "COMMENT ON TABLE t IS 'it''s'" ∧
      split (guarded s true nameInUse) = [block] := by
  obtain ⟨-, -, -, block, hblock, -, hsplit⟩ :=
    split_guarded " COMMENT ON TABLE t IS 'it''s';; " nameInUse
  refine ⟨_, block, rfl, ?_, hblock, ?_, hsplit (by decide)⟩
  · refine (String.append_left_inj "\n/").1 (hblock.symm.trans ?_)
    decide +kernel
  · decide +kernel

end Run

end SchemaDelta
