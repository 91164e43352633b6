import Highlighter.Proofs.Grammar.Compilation
import Highlighter.Proofs.Pattern.References

set_option autoImplicit false

namespace Highlighter

namespace RuleGraph

/-- The pattern that starts a compiled rule is that of a declared rule. Any search for it finds what
the engine finds, unless the declared pattern has a backslash before a digit: then none finds it. -/
theorem compile_searches (library : Library) (id : RuleId) (rule : Rule) (pattern : Pattern)
    (kept : (compile library).rule? id = some rule) (starts : rule.start? = some pattern) :
    ∃ decl source, library.Declares decl ∧ decl.start? = some source ∧
      Pattern.ofSource? source = some pattern ∧
      (Pattern.hasReference source.toList = false →
        ∃ regex, Regex.compile? (Pattern.withEndOfText source.toList) = some regex ∧
          ∀ (text : List Char) (cursor : Text.Cursor text),
            pattern.search? cursor true true = regex.search? cursor) ∧
      (Pattern.hasReference source.toList = true →
        ∀ (text : List Char) (cursor : Text.Cursor text) (allowStart allowSearch : Bool),
          pattern.search? cursor allowStart allowSearch = none) := by
  obtain ⟨decl, source, declared, first, compiled⟩ :=
    compile_yields kept pattern starts
  have refers := Pattern.refersBack_ofSource compiled
  refine ⟨decl, source, declared, first, compiled, fun plain => ?_, fun referring => ?_⟩
  · obtain ⟨regex, sound⟩ := Pattern.compile_of_not_refersBack compiled (refers.trans plain)
    refine ⟨regex, sound, fun text cursor => ?_⟩
    rw [Pattern.search_of_not_refersBack compiled (refers.trans plain),
      Pattern.masked_of_allowed, sound, Option.bind_some]
  · exact fun text cursor allowStart allowSearch =>
      Pattern.search_of_refersBack compiled (refers.trans referring) cursor allowStart allowSearch

end RuleGraph

def Library.matching (source : String) : Library :=
  ⟨⟨some "t", none, [⟨none, some "d", none, some source, none, none, none, none, none, none, none,
    none, none, false⟩], [], [], none, [], [], none⟩, Repository.empty⟩

def Rule.matching (source : String) : Rule :=
  ⟨1, some (Template.ofName "d"), none, .matching (Pattern.ofWritten source) []⟩

namespace RuleGraph

open Text (Cursor)

theorem digit_kept : (compile (.matching "[1]")).rule? 1 = some (.matching "[1]") := by cbv

theorem digit_found :
    (Pattern.ofWritten "[1]").search? (Cursor.first ['1']) true true = some ⟨⟨0, 1⟩, []⟩ := by cbv

theorem compile_searches_digit :
    (compile (.matching "[1]")).rule? 1 = some (.matching "[1]") ∧
      (Rule.matching "[1]").start? = some (Pattern.ofWritten "[1]") ∧
      ∃ decl source regex, (Library.matching "[1]").Declares decl ∧ decl.start? = some source ∧
        Regex.compile? (Pattern.withEndOfText source.toList) = some regex ∧
        regex.search? (Cursor.first ['1']) = some ⟨⟨0, 1⟩, []⟩ := by
  refine ⟨digit_kept, rfl, ?_⟩
  obtain ⟨decl, source, declared, first, compiled, searched, _⟩ :=
    compile_searches (.matching "[1]") 1 (.matching "[1]") _ digit_kept rfl
  have plain : (Pattern.ofWritten "[1]").refersBack = false := by cbv
  obtain ⟨regex, sound, same⟩ :=
    searched ((Pattern.refersBack_ofSource compiled).symm.trans plain)
  exact ⟨decl, source, regex, declared, first, sound, (same _ _).symm.trans digit_found⟩

theorem escaped_kept :
    (compile (.matching "[\\\\1]")).rule? 1 = some (.matching "[\\\\1]") := by cbv

theorem escaped_matches :
    (Regex.compile? (Pattern.ofWritten "[\\\\1]").source.toList).bind
      (·.search? (Cursor.first ['1'])) = some ⟨⟨0, 1⟩, []⟩ := by cbv

theorem escaped_missed :
    (Pattern.ofWritten "[\\\\1]").search? (Cursor.first ['1']) true true = none := by cbv

theorem escaped_dead :
    ¬ ∀ (library : Library) (id : RuleId) (rule : Rule) (pattern : Pattern),
      (compile library).rule? id = some rule → rule.start? = some pattern →
        ∀ (text : List Char) (cursor : Cursor text),
          ((Regex.compile? pattern.source.toList).bind (·.search? cursor)).isSome = true →
            (pattern.search? cursor true true).isSome = true := by
  intro alive
  have found := alive (.matching "[\\\\1]") 1 (.matching "[\\\\1]") _ escaped_kept rfl ['1']
    (Cursor.first _) (by rw [escaped_matches, Option.isSome_some])
  rw [escaped_missed] at found
  exact nomatch found

end RuleGraph

end Highlighter
