import Mathlib.Data.List.Basic
import RadixRouter.Proofs.Tree.Patterns
import RadixRouter.Proofs.Tree.Recut

/-!
The repair of a path told from the list of patterns alone. It reads the patterns one token at a time
and tries what they go on with in the order in which they are listed; where the tree cuts its
labels makes no difference.
-/

namespace RadixRouter

open Pattern

variable {α : Type}

namespace Pattern

/-- What the patterns that begin with `token` go on with. -/
def behind (token : Token) (listed : List (List Token)) : List (List Token) :=
  listed.filterMap fun tokens => if tokens.head? = some token then some tokens.tail else none

-- Each turn reads a character of the path at least, or a parameter's element, which is not empty.
mutual

/-- The repaired form of a path among the patterns. One that ends in front of the path's final slash
is tried last. -/
def repairAmong (fixSlash : Bool) (listed : List (List Token)) : Text → Option Text
  | [] =>
      if ∃ tokens ∈ listed, MatchesTokens tokens [] then some []
      else if fixSlash ∧ ∃ tokens ∈ listed, MatchesTokens tokens ['/'] then some ['/']
      else none
  | c :: rest =>
      ((listed.filterMap List.head?).findSome? fun token =>
          repairBehind fixSlash listed c rest token).or
        (if fixSlash ∧ c :: rest = ['/'] ∧ [] ∈ listed then some [] else none)
termination_by path => (path.length, 1)

/-- The repaired form of a path, which is not empty, among the patterns that begin with a token. -/
def repairBehind (fixSlash : Bool) (listed : List (List Token)) (c : Char) (rest : Text) :
    Token → Option Text
  | .char d =>
      if foldsTo c d then (repairAmong fixSlash (behind (.char d) listed) rest).map (d :: ·)
      else none
  | .param name =>
      if _ : Text.upTo '/' (c :: rest) = [] then none
      else
        (repairAmong fixSlash (behind (.param name) listed) (Text.fromNext '/' (c :: rest))).map
          (Text.upTo '/' (c :: rest) ++ ·)
  | .catchAll _ => some (c :: rest)
termination_by (rest.length + 1, 0)
decreasing_by
  · exact Prod.Lex.left _ _ (Nat.lt_succ_self _)
  · next hsegment =>
      apply Prod.Lex.left
      have hwhole := congrArg List.length (Text.upTo_append_fromNext '/' (c :: rest))
      have hpositive := List.length_pos_iff.mpr hsegment
      rw [List.length_append, List.length_cons] at hwhole
      omega

end

section Among

variable {fixSlash : Bool} {token : Token} {listed front back : List (List Token)} {c : Char}
  {rest : Text}

theorem behind_append : behind token (front ++ back) = behind token front ++ behind token back :=
  List.filterMap_append

@[simp] theorem behind_map_cons : behind token (listed.map (token :: ·)) = listed := by
  simp [behind, List.filterMap_map, Function.comp_def]

theorem behind_eq_nil (h : ∀ tokens ∈ listed, tokens.head? ≠ some token) :
    behind token listed = [] := by
  rw [behind, List.filterMap_eq_nil_iff]
  exact fun tokens htokens => if_neg (h tokens htokens)

/-- What a repair tries one after the other. -/
def repairNext (fixSlash : Bool) (listed : List (List Token)) (c : Char) (rest : Text) :
    Option Text :=
  (listed.filterMap List.head?).findSome? (repairBehind fixSlash listed c rest)

theorem repairAmong_cons :
    repairAmong fixSlash listed (c :: rest)
      = (repairNext fixSlash listed c rest).or
          (if fixSlash ∧ c :: rest = ['/'] ∧ [] ∈ listed then some [] else none) := by
  rw [repairAmong]
  rfl

theorem repairAmong_cons_of_not_mem (h : [] ∉ listed) :
    repairAmong fixSlash listed (c :: rest) = repairNext fixSlash listed c rest := by
  simp [repairAmong_cons, h]

@[simp] theorem repairAmong_nil_listed (path : Text) : repairAmong fixSlash [] path = none := by
  cases path with
  | nil => simp [repairAmong]
  | cons c rest => simp [repairAmong_cons, repairNext]

/-- A repair behind a token depends on the patterns that begin with it. -/
theorem repairBehind_congr (h : behind token front = behind token back) :
    repairBehind fixSlash front c rest token = repairBehind fixSlash back c rest token := by
  cases token <;> simp only [repairBehind, h]

/-- Patterns that begin with none of the tokens that are tried do not count. -/
theorem findSome?_repairBehind
    (h : ∀ token ∈ front.filterMap List.head?, behind token listed = behind token front) :
    (front.filterMap List.head?).findSome? (repairBehind fixSlash listed c rest)
      = repairNext fixSlash front c rest := by
  rw [repairNext, ← List.head?_filterMap, ← List.head?_filterMap]
  apply congrArg List.head?
  exact List.filterMap_congr fun token htoken => repairBehind_congr (h token htoken)

/-- Patterns that begin differently do not count for each other. -/
theorem repairNext_append
    (hapart : ∀ tokens ∈ front, ∀ other ∈ back, tokens.head? ≠ other.head?) :
    repairNext fixSlash (front ++ back) c rest
      = (repairNext fixSlash front c rest).or (repairNext fixSlash back c rest) := by
  rw [repairNext, List.filterMap_append, List.findSome?_append]
  congr 1
  · apply findSome?_repairBehind
    intro token htoken
    obtain ⟨tokens, htokens, hhead⟩ := List.mem_filterMap.mp htoken
    rw [behind_append, List.append_right_eq_self]
    apply behind_eq_nil
    exact fun other hother heq => hapart tokens htokens other hother (hhead.trans heq.symm)
  · apply findSome?_repairBehind
    intro token htoken
    obtain ⟨other, hother, hhead⟩ := List.mem_filterMap.mp htoken
    rw [behind_append, List.append_left_eq_self]
    apply behind_eq_nil
    exact fun tokens htokens heq => hapart tokens htokens other hother (heq.trans hhead.symm)

theorem repairNext_nil_cons (h : [] ∉ listed) :
    repairNext fixSlash ([] :: listed) c rest = repairNext fixSlash listed c rest := by
  have hapart : ∀ tokens ∈ [[]], ∀ other ∈ listed, tokens.head? ≠ other.head? := by
    intro tokens htokens other hother hsame
    rw [List.mem_singleton.mp htokens, List.head?_nil, eq_comm, List.head?_eq_none_iff] at hsame
    exact h (hsame ▸ hother)
  have hnone : repairNext fixSlash [[]] c rest = none := rfl
  rw [← List.singleton_append, repairNext_append hapart, hnone, Option.none_or]

/-- When all patterns begin with the same token there is nothing else to try. -/
theorem repairNext_map_cons (hsome : listed ≠ []) :
    repairNext fixSlash (listed.map (token :: ·)) c rest
      = repairBehind fixSlash (listed.map (token :: ·)) c rest token := by
  have hheads : (listed.map (token :: ·)).filterMap List.head?
      = List.replicate listed.length token := by
    simp [List.filterMap_map, Function.comp_def, List.map_const']
  rw [repairNext, hheads, List.findSome?_replicate_of_pos (List.length_pos_iff.mpr hsome)]

end Among

end Pattern

theorem Entry.map_tokens_under (front : List Token) (entries : List (Entry α)) :
    (entries.map (under front)).map tokens = (entries.map tokens).map (front ++ ·) := by
  simp [Function.comp_def]

namespace Node

variable {fixSlash : Bool} {above : Text} {node : Node α}

/-- The end of a path at a place. -/
theorem repair_nil_eq_among (hsound : node.Sound above) :
    node.repair fixSlash [] = repairAmong fixSlash (node.entries.map Entry.tokens) [] := by
  rw [repair_nil, repairAmong]
  simp only [List.mem_map, exists_exists_and_eq_and, ← Node.terminates_iff hsound]
  split
  · rfl
  · next hopen => simp only [Bool.and_eq_true, Node.hasSlashLeaf_iff hsound hopen]

/-- Along a label the patterns are read one character at a time. -/
theorem repairAlong_eq_among (hsound : node.Sound above)
    (hdeeper : ∀ path,
      node.repair fixSlash path = repairAmong fixSlash (node.entries.map Entry.tokens) path)
    (label path : Text) :
    repairAlong fixSlash label node path (node.repair fixSlash)
      = repairAmong fixSlash ((node.entries.map Entry.tokens).map (label.map .char ++ ·)) path := by
  induction label generalizing path with
  | nil => simpa [repairAlong, Text.afterFold?, Function.comp_def] using hdeeper path
  | cons c label ih =>
      have hlabel := List.cons_ne_nil c label
      cases path with
      | nil =>
          have hnever : ¬ ∃ entry ∈ node.entries,
              MatchesTokens ((c :: label).map .char ++ entry.tokens) [] := by
            simp [matchesTokens_char]
          rw [repairAlong_nil hlabel, repairAmong]
          simp only [List.mem_map, exists_exists_and_eq_and, if_neg hnever,
            Node.matches_slash_along_iff hsound hlabel]
          by_cases hslash : c :: label = ['/'] <;> simp [hslash]
      | cons d path =>
          have hsome : (node.entries.map Entry.tokens).map (label.map .char ++ ·) ≠ [] := by
            simpa using hsound.entries_ne_nil
          have hcons : (node.entries.map Entry.tokens).map ((c :: label).map .char ++ ·)
              = ((node.entries.map Entry.tokens).map (label.map .char ++ ·)).map (.char c :: ·) := by
            simp
          rw [hcons, repairAmong_cons_of_not_mem (by simp), repairNext_map_cons hsome, repairBehind,
            behind_map_cons, repairAlong_cons, ih]

end Node

-- Induction on the tree, along with the ways for a path that is not empty.
mutual

theorem Node.repair_eq_among {node : Node α} : ∀ {above : Text} (fixSlash : Bool) (path : Text),
    node.Sound above →
    node.repair fixSlash path = repairAmong fixSlash (node.entries.map Entry.tokens) path := by
  intro above fixSlash path hsound
  cases path with
  | nil => exact Node.repair_nil_eq_among hsound
  | cons c rest =>
      cases node with
      | mk held pattern priority ways =>
          have hways : ways.Sound above := hsound.ways
          have hnever : [] ∉ ways.entries.map Entry.tokens := by
            rw [List.mem_map]
            rintro ⟨entry, hentry, hnil⟩
            obtain ⟨token, later, htokens, -⟩ := hways.first_of_mem entry hentry
            simp [hnil] at htokens
          rw [Node.repair_cons, Ways.repair_eq_among fixSlash c rest hways, repairAmong_cons,
            Node.entries_mk, List.map_append]
          cases held with
          | none => simp [hnever]
          | some value => simp [repairNext_nil_cons hnever]

theorem Ways.repair_eq_among {ways : Ways α} : ∀ {above : Text} (fixSlash : Bool) (c : Char)
    (rest : Text), ways.Sound above →
    ways.repair fixSlash (c :: rest) = repairNext fixSlash (ways.entries.map Entry.tokens) c rest := by
  intro above fixSlash c rest hways
  cases ways with
  | none => simp [Ways.repair, repairNext]
  | literal label next others =>
      obtain ⟨hlabel, hnext, hothers, hfork⟩ := Ways.sound_literal.mp hways
      have halong := Node.repairAlong_eq_among hnext
        (fun path => Node.repair_eq_among fixSlash path hnext) label (c :: rest)
      obtain ⟨d, label, rfl⟩ := List.exists_cons_of_ne_nil hlabel.ne_nil
      rw [repairAmong_cons_of_not_mem (by simp)] at halong
      rw [Ways.repair_literal, halong, Ways.repair_eq_among fixSlash c rest hothers,
        Ways.entries_literal, List.map_append, Entry.map_tokens_under, repairNext_append]
      intro tokens htokens other hother hsame
      obtain ⟨inner, -, rfl⟩ := List.mem_map.mp htokens
      obtain ⟨entry, hentry, rfl⟩ := List.mem_map.mp hother
      obtain ⟨token, later, hentryTokens, hbegins⟩ := hothers.first_of_mem entry hentry
      rw [hentryTokens] at hsame
      cases hsame
      exact hfork.apart d rfl (Ways.BeginsWith.char_iff.mp hbegins)
  | param name next =>
      have hnext := (Ways.sound_param.mp hways).2.1
      have hsome : next.entries.map Entry.tokens ≠ [] := by simpa using hnext.entries_ne_nil
      rw [Ways.repair, Ways.entries_param, Entry.map_tokens_under]
      simp only [List.singleton_append]
      rw [repairNext_map_cons hsome, repairBehind, behind_map_cons,
        Node.repair_eq_among fixSlash _ hnext]
      rfl
  | catchAll name value pattern => simp [Ways.repair, repairNext, repairBehind]

end

namespace Tree

theorem Sound.repair_eq_among {tree : Tree α} (hsound : tree.Sound) (fixSlash : Bool)
    (path : Text) :
    tree.repair fixSlash path = repairAmong fixSlash (tree.entries.map Entry.tokens) path := by
  cases tree with
  | empty => simp [Tree.repair, Tree.entries]
  | root label node =>
      have hnode := hsound.2.2
      rw [Tree.entries, Entry.map_tokens_under]
      exact Node.repairAlong_eq_among hnode
        (fun path => Node.repair_eq_among fixSlash path hnode) label path

/-- A tree repairs a path as the list of its patterns says. -/
theorem Holds.repair_eq_among {tree : Tree α} {routes : List (Text × α)} (h : tree.Holds routes)
    (fixSlash : Bool) (path : Text) :
    tree.repair fixSlash path = repairAmong fixSlash (tree.patterns.map tokens) path := by
  rw [h.patterns_map_tokens]
  exact h.sound.repair_eq_among fixSlash path

end Tree

end RadixRouter
