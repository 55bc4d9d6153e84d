import Lineage.Proofs.Source.Effects

/-!
# Promises of the rules

Whatever tokens are ahead, the goals that answer a rule do what the rule promises.
-/

namespace Lineage.Source

variable {ahead : Ahead} {answer : List Goal}

theorem TypeRule.keeps_expand {rule : TypeRule} (expands : rule.expand ahead = some answer) :
    Keeps (Rule.type rule).promise answer := by
  rw [← keeps_iff]
  revert expands
  fun_cases TypeRule.expand rule ahead <;> intro expands <;> cases expands
  case case1 field => rcases field with _ | _ | _ <;> rfl
  all_goals try split
  all_goals rfl

theorem DeclarationRule.keeps_ofKeyword {keyword : String}
    (expands : ofKeyword keyword = some answer) : Keeps id answer := by
  rw [← keeps_iff]
  revert expands
  fun_cases ofKeyword keyword <;> intro expands <;> cases expands <;> rfl

theorem DeclarationRule.keeps_expand {rule : DeclarationRule}
    (expands : rule.expand ahead = some answer) :
    Keeps (Rule.declaration rule).promise answer := by
  rw [← keeps_iff]
  revert expands
  fun_cases DeclarationRule.expand rule ahead <;> intro expands <;> cases expands
  case case39 name _ _ => simp only [name]; split <;> rfl
  case case47 parts => simp only [parts]; split <;> rfl
  all_goals try split
  all_goals rfl

theorem StatementRule.keeps_keywordStatement {word : String}
    (expands : keywordStatement word = some answer) : Keeps id answer := by
  rw [← keeps_iff]
  revert expands
  fun_cases keywordStatement word <;> intro expands <;> cases expands <;> rfl

theorem StatementRule.keeps_declared {block : Block} {keyword : String}
    (expands : declared block keyword = some answer) : Keeps id answer := by
  rw [declared] at expands
  split_ifs at expands with allowed bodied
  · obtain ⟨goals, same, rfl⟩ := Option.map_eq_some_iff.mp expands
    have func : keyword = "func" := by
      have both := Bool.and_eq_true_iff.mp bodied
      exact eq_of_beq both.1
    rw [func] at same
    cases same
    rw [← keeps_iff]
    rfl
  · exact DeclarationRule.keeps_ofKeyword expands

theorem StatementRule.keeps_item {block : Block} (expands : item block ahead = some answer) :
    Keeps id answer := by
  rw [item] at expands
  split at expands
  · exact keeps_declared expands
  · rw [← keeps_iff]
    split_ifs at expands <;> cases expands <;> rfl

theorem StatementRule.keeps_expand {rule : StatementRule}
    (expands : rule.expand ahead = some answer) :
    Keeps (Rule.statement rule).promise answer := by
  revert expands
  fun_cases StatementRule.expand rule ahead <;> intro expands
  case case2 block _ =>
    obtain ⟨goals, found, rfl⟩ := Option.map_eq_some_iff.mp expands
    have separated : Keeps id [(separator block).goal] := keeps_iff.mp rfl
    exact (keeps_item found).append separated
  case case10 => exact keeps_keywordStatement expands
  all_goals cases expands
  all_goals rw [← keeps_iff]
  all_goals try split
  all_goals rfl

theorem ExpressionRule.keeps_expand {rule : ExpressionRule}
    (expands : rule.expand ahead = some answer) :
    Keeps (Rule.expression rule).promise answer := by
  revert expands
  fun_cases ExpressionRule.expand rule ahead <;> intro expands
  case case10 =>
    obtain ⟨word, -, answered⟩ := Option.bind_eq_some_iff.mp expands
    exact StatementRule.keeps_keywordStatement answered
  all_goals cases expands
  -- An operator is read one token at a time.
  case case6 => exact keeps_replicate_readAny _
  case case7 | case32 | case33 =>
    exact (keeps_replicate_readAny _).append (keeps_iff.mp rfl)
  all_goals rw [← keeps_iff]
  all_goals repeat' split
  all_goals rfl

theorem Rule.keeps_expand {rule : Rule} (expands : rule.expand ahead = some answer) :
    Keeps rule.promise answer := by
  cases rule with
  | type rule => exact TypeRule.keeps_expand expands
  | declaration rule => exact DeclarationRule.keeps_expand expands
  | statement rule => exact StatementRule.keeps_expand expands
  | expression rule => exact ExpressionRule.keeps_expand expands

/-- Goals that do no harm to the open phrases still do none when a rule among them is answered. -/
theorem effects_answer {rule : Rule} {goals : List Goal} {summaries after : List Summary}
    (expands : rule.expand ahead = some answer)
    (done : effects (.rule rule :: goals) summaries = some after) :
    ∃ learnt, effects (answer ++ goals) summaries = some learnt := by
  have answered : rule ≠ .declaration .lostKeyword := by
    rintro rfl
    cases expands
  obtain ⟨between, first, rest⟩ := Option.bind_eq_some_iff.mp done
  cases summaries with
  | nil => cases first
  | cons summary outer =>
      rw [Goal.effect, if_neg answered] at first
      cases first
      obtain ⟨reached, kept, le⟩ := Rule.keeps_expand expands summary
      have further := effects_append_right kept outer
      obtain ⟨learnt, done, -⟩ :=
        effects_of_le rest (.cons le (Summary.leAll_refl outer))
      refine ⟨learnt, ?_⟩
      rw [effects_append, ← List.singleton_append, further, Option.bind_some]
      exact done

end Lineage.Source
