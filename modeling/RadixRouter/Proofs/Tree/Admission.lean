import RadixRouter.Proofs.Pattern.Grammar
import RadixRouter.Proofs.Pattern.Scan
import RadixRouter.Proofs.Tree.Patterns
import RadixRouter.Proofs.Tree.Resolution

/-!
Which patterns a tree takes at all. Where no route is registered yet nothing can conflict, and the
form of the pattern alone decides.
-/

namespace RadixRouter.Tree

open Pattern (Malformed WellFormed)

variable {α : Type}

/-- A tree that refuses a pattern for its form is left as it was. -/
theorem insert_of_malformed {pattern : Text} {fault : RouteError} (h : Malformed pattern fault)
    (value : α) (tree : Tree α) : tree.insert pattern value = (tree, .error fault) := by
  simp only [insert, Pattern.check_eq_error_iff.mpr h]

theorem empty_insert_of_wellFormed {pattern : Text} (h : WellFormed pattern) (value : α) :
    (empty : Tree α).insert pattern value = (plant pattern value, .ok ()) := by
  simp only [insert, h.check]

/-- A first route is the only one that the tree lists, and whatever matches its pattern resolves to
it. -/
theorem plant_holds {pattern : Text} (h : WellFormed pattern) (value : α) :
    (plant pattern value).patterns = [pattern]
      ∧ ∀ path found params, (plant pattern value).lookup path = .hit found params
        ↔ found = value ∧ Pattern.bind? (Pattern.tokens pattern) path = some params := by
  have hholds : (plant pattern value).Holds [(pattern, value)] :=
    holds_empty.insert_ok (empty_insert_of_wellFormed h value)
  refine ⟨List.perm_singleton.mp hholds.patterns_perm, ?_⟩
  intro path found params
  rw [hholds.lookup_eq_hit_iff]
  constructor
  · rintro ⟨pattern', hmost⟩
    obtain ⟨rfl, rfl⟩ := Prod.mk.inj (List.mem_singleton.mp hmost.mem)
    exact ⟨rfl, hmost.binds⟩
  · rintro ⟨rfl, hbinds⟩
    refine ⟨pattern, List.mem_singleton_self _, hbinds, ?_⟩
    intro other hother hne
    exact (hne (List.mem_singleton.mp hother)).elim

/-- The scan of a pattern comes to an end, and of a pattern with a slash in front it finds what is
wrong with it. -/
theorem scanWithin?_eq_check (pattern : Text) :
    ∃ verdict, Pattern.scanWithin? pattern (pattern.countP Pattern.isMark + 1) 0 = some verdict
      ∧ (pattern.head? = some '/' → Pattern.check pattern = verdict) := by
  refine ⟨Pattern.checkWildcards pattern pattern, ?_, Pattern.check_of_rooted⟩
  exact Pattern.scanWithin?_eq (List.nil_append pattern).symm (Or.inl rfl) (Nat.lt_succ_self _)

/-- What becomes of `pattern` in a tree without routes. -/
structure Admits (pattern : Text) (value : α) : Prop where
  /-- The patterns of the right form are taken, and no others. -/
  accepted : ((empty : Tree α).insert pattern value).2 = .ok () ↔ WellFormed pattern
  /-- A pattern that is taken is the one that the tree then lists, and the paths that match it are
  those that resolve to its value, with the bindings of the match. -/
  planted : WellFormed pattern →
    ((empty : Tree α).insert pattern value).1.patterns = [pattern]
      ∧ ∀ path found params,
        ((empty : Tree α).insert pattern value).1.lookup path = .hit found params
          ↔ found = value ∧ Pattern.bind? (Pattern.tokens pattern) path = some params
  /-- A refusal tells what is wrong with the pattern first. -/
  refused : ∀ fault,
    ((empty : Tree α).insert pattern value).2 = .error fault ↔ Malformed pattern fault
  /-- A refusal leaves the tree without routes. -/
  untouched : ∀ fault, ((empty : Tree α).insert pattern value).2 = .error fault →
    ((empty : Tree α).insert pattern value).1 = empty
  /-- The scan of the bytes of the pattern ends after a round for each mark and one more, never
  cuts into a character, and decides alone once there is a slash in front. -/
  scanned : ∃ verdict,
    Pattern.scanWithin? pattern (pattern.countP Pattern.isMark + 1) 0 = some verdict
      ∧ (pattern.head? = some '/' → ((empty : Tree α).insert pattern value).2 = verdict)

/-- A tree without routes takes exactly the patterns of the grammar, and says of every other one
what is wrong with it. -/
theorem empty_insert_admits (pattern : Text) (value : α) : Admits pattern value := by
  have hverdict : ((empty : Tree α).insert pattern value).2 = Pattern.check pattern := by
    cases hcheck : Pattern.check pattern with
    | error fault => rw [insert_of_malformed (Pattern.check_eq_error_iff.mp hcheck)]
    | ok _ => rw [empty_insert_of_wellFormed (Pattern.check_eq_ok_iff.mp hcheck)]
  refine ⟨?_, fun hform => ?_, fun fault => ?_, fun fault hfault => ?_, ?_⟩
  · rw [hverdict]
    exact Pattern.check_eq_ok_iff
  · rw [empty_insert_of_wellFormed hform]
    exact plant_holds hform value
  · rw [hverdict]
    exact Pattern.check_eq_error_iff
  · rw [hverdict] at hfault
    rw [insert_of_malformed (Pattern.check_eq_error_iff.mp hfault)]
  · rw [hverdict]
    exact scanWithin?_eq_check pattern

-- A second mark counts before the missing name in front of it, but not before an earlier element.
example :
    ((empty : Tree Nat).insert "/ü/:a*/*".toList 1).2
        = .error (.multipleWildcardsInSegment ":a*".toList "/ü/:a*/*".toList)
      ∧ ((empty : Tree Nat).insert "/ü*x/:a:b".toList 1).2
        = .error (.catchAllNotAtEnd "/ü*x/:a:b".toList) := by
  decide +kernel

end RadixRouter.Tree
