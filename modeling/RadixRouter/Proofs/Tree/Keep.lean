import RadixRouter.Proofs.Tree.Patterns
import RadixRouter.Proofs.Tree.Repair

/-!
When a repair leaves a path alone that a route matches. The repair tries the routes in the order in
which they are listed, and a route in front that matches a path near to the given one is as good to
it as the one that matches the path itself. Only a route that ends on the way of that one is tried
after it.
-/

namespace RadixRouter

open Pattern

variable {α : Type}

namespace Pattern

/-- The tokens that are listed in front of the first ones that match `path`, but for those that end
on the way of these. -/
def rivals (path : Text) (listed : List (List Token)) : List (List Token) :=
  match listed.find? (MatchesTokens · path) with
  | none => []
  | some own => (listed.takeWhile (¬ MatchesTokens · path)).filter (¬ · <+: own)

section Rivals

variable {path rest : Text} {front back listed : List (List Token)}

/-- What is listed behind a match does not count. -/
theorem rivals_append_of_exists (h : ∃ tokens ∈ front, MatchesTokens tokens path)
    (back : List (List Token)) : rivals path (front ++ back) = rivals path front := by
  obtain ⟨tokens, htokens, hmatches⟩ := h
  have hfound : (front.find? (MatchesTokens · path)).isSome = true :=
    List.find?_isSome.mpr ⟨tokens, htokens, decide_eq_true hmatches⟩
  have hstops : (front.takeWhile (¬ MatchesTokens · path)).length ≠ front.length := by
    intro hlength
    have hall := (List.takeWhile_prefix (¬ MatchesTokens · path)).eq_of_length hlength
    rw [List.takeWhile_eq_self_iff] at hall
    simpa [hmatches] using hall tokens htokens
  rw [rivals, rivals, List.find?_append, Option.or_of_isSome hfound, List.takeWhile_append,
    if_neg hstops]

/-- What is listed in front and does not match counts, unless it ends on the way. -/
theorem rivals_append_of_forall_not (h : ∀ tokens ∈ front, ¬ MatchesTokens tokens path)
    (hsome : ∃ own ∈ back, MatchesTokens own path)
    (hapart : ∀ tokens ∈ front, ∀ own ∈ back, ¬ tokens <+: own) :
    rivals path (front ++ back) = front ++ rivals path back := by
  have hnone : front.find? (MatchesTokens · path) = none := by
    simpa [List.find?_eq_none] using h
  obtain ⟨own, hown⟩ : ∃ own, back.find? (MatchesTokens · path) = some own := by
    rw [← Option.isSome_iff_exists, List.find?_isSome]
    simpa using hsome
  have hkept : front.filter (¬ · <+: own) = front := by
    rw [List.filter_eq_self]
    intro tokens htokens
    exact decide_eq_true (hapart tokens htokens own (List.mem_of_find?_eq_some hown))
  have hpassed : ∀ tokens ∈ front, decide (¬ MatchesTokens tokens path) = true := by
    simpa using h
  rw [rivals, rivals, List.find?_append, hnone, Option.none_or, hown,
    List.takeWhile_append_of_pos hpassed]
  simp only [List.filter_append, hkept]

theorem rivals_nil_cons (hne : path ≠ []) (listed : List (List Token)) :
    rivals path ([] :: listed) = rivals path listed := by
  simp [rivals, hne]

/-- Behind the same front the same tokens count. -/
theorem rivals_map {above : List Token}
    (h : ∀ tokens, MatchesTokens (above ++ tokens) path ↔ MatchesTokens tokens rest) :
    rivals path (listed.map (above ++ ·)) = (rivals rest listed).map (above ++ ·) := by
  rw [rivals, rivals, List.find?_map]
  simp only [Function.comp_def, h]
  cases listed.find? (MatchesTokens · rest) with
  | none => rfl
  | some own =>
      simp [List.takeWhile_map, List.filter_map, Function.comp_def, h,
        List.prefix_append_right_inj]

end Rivals

/-- Whether the tokens match a path that is near to `path`. -/
def NearMatches (fixSlash : Bool) (tokens : List Token) (path : Text) : Prop :=
  ∃ repaired, Text.Near fixSlash path repaired ∧ MatchesTokens tokens repaired

section NearMatches

variable {fixSlash : Bool} {tokens : List Token} {path : Text}

theorem nearMatches_chars {label rest : Text} :
    NearMatches fixSlash (label.map .char ++ tokens) (label ++ rest)
      ↔ NearMatches fixSlash tokens rest := by
  constructor
  · rintro ⟨repaired, hnear, hmatches⟩
    obtain ⟨deep, rfl, hdeep⟩ := matchesTokens_chars.mp hmatches
    exact ⟨deep, hnear.cancel rfl, hdeep⟩
  · rintro ⟨deep, hnear, hdeep⟩
    exact ⟨label ++ deep, hnear.prepend (Text.FoldEq.refl label),
      matchesTokens_chars.mpr ⟨deep, rfl, hdeep⟩⟩

theorem nearMatches_param {name : Text} (hsegment : Text.upTo '/' path ≠ []) :
    NearMatches fixSlash (.param name :: tokens) path
      ↔ NearMatches fixSlash tokens (Text.fromNext '/' path) := by
  constructor
  · rintro ⟨repaired, hnear, hmatches⟩
    exact ⟨_, hnear.upTo_fromNext.2, (matchesTokens_param.mp hmatches).2⟩
  · rintro ⟨deep, hnear, hdeep⟩
    exact ⟨_, near_under_param hsegment hnear hdeep⟩

end NearMatches

end Pattern

/-- What a repair of `path` says about the routes that are tried before the one that matches it: the
path is left alone if and only if none of them matches a path near to it. -/
def Keeps (entries : List (Entry α)) (fixSlash : Bool) (path : Text) (repaired : Option Text) :
    Prop :=
  (∃ entry ∈ entries, MatchesTokens entry.tokens path) →
    (repaired = some path
      ↔ ∀ rival ∈ rivals path (entries.map Entry.tokens), ¬ NearMatches fixSlash rival path)

namespace Keeps

variable {entries others : List (Entry α)} {fixSlash : Bool} {path rest : Text}
  {first second : Option Text}

/-- The second repair counts when there is no first one. -/
theorem or (hfirst : Keeps entries fixSlash path first) (hsecond : Keeps others fixSlash path second)
    (hrepairs : Repairs entries fixSlash path first)
    (hapart : ∀ entry ∈ entries, ∀ other ∈ others, ¬ entry.tokens <+: other.tokens) :
    Keeps (entries ++ others) fixSlash path (first.or second) := by
  have hself : Text.Near fixSlash path path := Or.inl (Text.FoldEq.refl path)
  intro hmatched
  rw [List.map_append]
  -- A match among the first routes makes them repair the path to something. Without one, whatever
  -- they repair it to is not the path itself.
  by_cases hhere : ∃ entry ∈ entries, MatchesTokens entry.tokens path
  · have hkeeps := hfirst hhere
    obtain ⟨entry, hentry, hmatches⟩ := hhere
    rw [rivals_append_of_exists ⟨_, List.mem_map_of_mem hentry, hmatches⟩]
    cases first with
    | some repaired => exact hkeeps
    | none => exact (hrepairs path hself entry hentry hmatches).elim
  · simp only [not_exists, not_and] at hhere
    have hthere : ∃ other ∈ others, MatchesTokens other.tokens path := by
      obtain ⟨other, hother, hmatches⟩ := hmatched
      rcases List.mem_append.mp hother with hother | hother
      · exact (hhere other hother hmatches).elim
      · exact ⟨other, hother, hmatches⟩
    rw [rivals_append_of_forall_not (by simpa using hhere) (by simpa using hthere)
      (by simpa using hapart)]
    cases first with
    | none =>
        have hnone : ∀ rival ∈ entries.map Entry.tokens, ¬ NearMatches fixSlash rival path := by
          rintro rival hrival ⟨repaired, hnear, hmatches⟩
          obtain ⟨entry, hentry, rfl⟩ := List.mem_map.mp hrival
          exact hrepairs repaired hnear entry hentry hmatches
        rw [Option.none_or, hsecond hthere]
        simp only [List.forall_mem_append, and_iff_right hnone]
    | some repaired =>
        obtain ⟨hnear, entry, hentry, hmatches⟩ := hrepairs
        rw [Option.some_or, Option.some_inj]
        constructor
        · rintro rfl
          exact (hhere entry hentry hmatches).elim
        · intro hnone
          exact (hnone _ (List.mem_append_left _ (List.mem_map_of_mem hentry))
            ⟨repaired, hnear, hmatches⟩).elim

/-- Behind the same front the same routes are found. -/
theorem under (above : List Token) (front : Text) (h : Keeps entries fixSlash rest first)
    (hmatches : ∀ tokens, MatchesTokens (above ++ tokens) (front ++ rest)
      ↔ MatchesTokens tokens rest)
    (hnear : ∀ tokens, NearMatches fixSlash (above ++ tokens) (front ++ rest)
      ↔ NearMatches fixSlash tokens rest) :
    Keeps (entries.map (Entry.under above)) fixSlash (front ++ rest)
      (first.map (front ++ ·)) := by
  intro hmatched
  have hbelow : ∃ entry ∈ entries, MatchesTokens entry.tokens rest := by
    simpa [hmatches] using hmatched
  have htokens : (entries.map (Entry.under above)).map Entry.tokens
      = (entries.map Entry.tokens).map (above ++ ·) := by
    rw [List.map_map, List.map_map]
    rfl
  have hcancel : first.map (front ++ ·) = some (front ++ rest) ↔ first = some rest := by
    simp [Option.map_eq_some_iff]
  rw [hcancel, h hbelow, htokens, rivals_map hmatches]
  simp only [List.forall_mem_map, hnear]

theorem under_param (name : Text) (hsegment : Text.upTo '/' path ≠ [])
    (h : Keeps entries fixSlash (Text.fromNext '/' path) first) :
    Keeps (entries.map (Entry.under [.param name])) fixSlash path
      (first.map (Text.upTo '/' path ++ ·)) := by
  have hunder := h.under [.param name] (Text.upTo '/' path)
  simp only [Text.upTo_append_fromNext, List.singleton_append, matchesTokens_param,
    and_iff_right hsegment, nearMatches_param hsegment, implies_true, forall_const] at hunder
  exact hunder

end Keeps

/-- A label's routes do not end on the way of the others', which begin with another character. -/
theorem Ways.Fork.not_prefix {above label : Text} {next : Node α} {others : Ways α}
    (hfork : Ways.Fork label next others) (hlabel : Label label) (hothers : others.Sound above) :
    ∀ entry ∈ next.entries.map (Entry.under (label.map .char)), ∀ other ∈ others.entries,
      ¬ entry.tokens <+: other.tokens := by
  intro entry hentry other hother hprefix
  obtain ⟨inner, -, rfl⟩ := List.mem_map.mp hentry
  obtain ⟨c, label, rfl⟩ := List.exists_cons_of_ne_nil hlabel.ne_nil
  obtain ⟨token, later, htokens, hbegins⟩ := hothers.first_of_mem other hother
  rw [htokens, Entry.under_tokens, List.map_cons, List.cons_append,
    List.cons_prefix_cons] at hprefix
  rw [← hprefix.1, Ways.BeginsWith.char_iff] at hbegins
  exact hfork.apart c rfl hbegins

theorem Node.repairAlong_keeps {label path : Text} {node : Node α} {fixSlash : Bool}
    {deeper : Text → Option Text}
    (hdeeper : ∀ rest, Keeps node.entries fixSlash rest (deeper rest)) :
    Keeps (node.entries.map (Entry.under (label.map .char))) fixSlash path
      (repairAlong fixSlash label node path deeper) := by
  intro hmatched
  obtain ⟨entry, hentry, hmatches⟩ := hmatched
  obtain ⟨inner, -, rfl⟩ := List.mem_map.mp hentry
  obtain ⟨rest, rfl, -⟩ := matchesTokens_chars.mp hmatches
  have hafter : Text.afterFold? label (label ++ rest) = some rest :=
    Text.afterFold?_eq_some_iff.mpr ⟨label, rfl, Text.FoldEq.refl label⟩
  rw [repairAlong, hafter]
  exact (hdeeper rest).under _ label (fun tokens => by simp [matchesTokens_chars])
    (fun tokens => nearMatches_chars) ⟨_, hentry, hmatches⟩

/-- Where a path ends that a route matches, nothing is tried before that route. -/
theorem Node.repair_nil_keeps {above : Text} {node : Node α} (fixSlash : Bool)
    (hsound : node.Sound above) : Keeps node.entries fixSlash [] (node.repair fixSlash []) := by
  intro hmatched
  have hends := (Node.terminates_iff hsound).mpr hmatched
  rw [Node.repair_nil, if_pos hends]
  cases node with
  | mk held pattern priority ways =>
      have hways := (Node.sound_mk.mp hsound).2
      cases held with
      | some value => simp [rivals]
      | none =>
          obtain ⟨existing, hcatch⟩ : ∃ existing, ways.catchAll? = some existing := by
            simpa [terminates, Node.value, Node.ways, Option.isSome_iff_exists] using hends
          cases ways with
          | none => simp [Ways.catchAll?] at hcatch
          | literal label next others =>
              have halone := (Ways.sound_literal.mp hways).2.2.2.alone
              rw [Ways.catchAll?, halone] at hcatch
              contradiction
          | param name next => simp [Ways.catchAll?] at hcatch
          | catchAll name value pattern => simp [rivals]

/-- The route that ends at a place does not count for a path that goes on. -/
theorem Node.repair_cons_keeps {above pattern rest : Text} {held : Option α} {priority : Nat}
    {ways : Ways α} {fixSlash : Bool} {c : Char} (hways : ways.Sound above)
    (h : Keeps ways.entries fixSlash (c :: rest) (ways.repair fixSlash (c :: rest))) :
    Keeps (Node.mk held pattern priority ways).entries fixSlash (c :: rest)
      ((Node.mk held pattern priority ways).repair fixSlash (c :: rest)) := by
  intro hmatched
  have hthere : ∃ entry ∈ ways.entries, MatchesTokens entry.tokens (c :: rest) := by
    cases held <;> simpa using hmatched
  have hsame : (Node.mk held pattern priority ways).repair fixSlash (c :: rest)
      = ways.repair fixSlash (c :: rest) := by
    have hrepairs := Ways.repair_repairs fixSlash (c :: rest) hways (by simp)
    rw [Node.repair_cons]
    cases hrepair : ways.repair fixSlash (c :: rest) with
    | some repaired => rfl
    | none =>
        rw [hrepair] at hrepairs
        obtain ⟨entry, hentry, hmatches⟩ := hthere
        exact (hrepairs _ (Or.inl (Text.FoldEq.refl _)) entry hentry hmatches).elim
  have hrivals : rivals (c :: rest)
        ((Node.mk held pattern priority ways).entries.map Entry.tokens)
      = rivals (c :: rest) (ways.entries.map Entry.tokens) := by
    cases held with
    | none => simp
    | some value => simp [rivals_nil_cons]
  rw [hsame, hrivals]
  exact h hthere

-- Induction on the tree: the routes in front of a way are those of the ways before it, and they
-- begin with another character; the route that ends at the place is tried last.
mutual

theorem Node.repair_keeps {node : Node α} :
    ∀ {above : Text} (fixSlash : Bool) (path : Text), node.Sound above →
      Keeps node.entries fixSlash path (node.repair fixSlash path) := by
  intro above fixSlash path hsound
  cases path with
  | nil => exact Node.repair_nil_keeps fixSlash hsound
  | cons c rest =>
      cases node with
      | mk held pattern priority ways =>
          have hways := (Node.sound_mk.mp hsound).2
          exact Node.repair_cons_keeps hways
            (Ways.repair_keeps fixSlash (c :: rest) hways (by simp))

theorem Ways.repair_keeps {ways : Ways α} :
    ∀ {above : Text} (fixSlash : Bool) (path : Text), ways.Sound above → path ≠ [] →
      Keeps ways.entries fixSlash path (ways.repair fixSlash path) := by
  intro above fixSlash path hways hne
  cases ways with
  | none => simp [Keeps]
  | literal label next others =>
      obtain ⟨hlabel, hnext, hothers, hfork⟩ := Ways.sound_literal.mp hways
      rw [Ways.entries_literal, Ways.repair_literal]
      apply Keeps.or
      · exact Node.repairAlong_keeps fun rest => Node.repair_keeps fixSlash rest hnext
      · exact Ways.repair_keeps fixSlash path hothers hne
      · exact Node.repairAlong_repairs hnext fun rest => Node.repair_repairs fixSlash rest hnext
      · exact hfork.not_prefix hlabel hothers
  | param name next =>
      have hnext := (Ways.sound_param.mp hways).2.1
      rw [Ways.entries_param, Ways.repair]
      split
      · next hsegment =>
          rintro ⟨entry, hentry, hmatches⟩
          obtain ⟨inner, -, rfl⟩ := List.mem_map.mp hentry
          exact ((matchesTokens_param.mp hmatches).1 hsegment).elim
      · next hsegment =>
          exact (Node.repair_keeps fixSlash _ hnext).under_param name hsegment
  | catchAll name value pattern =>
      rw [Ways.entries_catchAll, Ways.repair]
      simp [Keeps, rivals]

end

theorem Tree.repair_keeps {tree : Tree α} (fixSlash : Bool) (path : Text) (hsound : tree.Sound) :
    Keeps tree.entries fixSlash path (tree.repair fixSlash path) := by
  cases tree with
  | empty => simp [Keeps, Tree.entries]
  | root label node =>
      have hnode := hsound.2.2
      exact Node.repairAlong_keeps fun rest => Node.repair_keeps fixSlash rest hnode

/-- Whether no pattern in front of the one of `path` matches a path near to it, but for those that
end on the way of that one. -/
def Tree.Unrivalled (tree : Tree α) (fixSlash : Bool) (path : Text) : Prop :=
  ∀ rival ∈ rivals path (tree.patterns.map tokens), ¬ NearMatches fixSlash rival path

/-- A path that is matched is left alone if and only if it has no rival. -/
theorem Tree.Holds.repair_eq_self_iff {tree : Tree α} {routes : List (Text × α)}
    (h : tree.Holds routes) (fixSlash : Bool) {path : Text}
    (hhit : (tree.lookup path).isHit = true) :
    tree.repair fixSlash path = some path ↔ tree.Unrivalled fixSlash path := by
  obtain ⟨route, hroute, hmatches⟩ := (h.isHit_iff path).mp hhit
  rw [Tree.Unrivalled, h.patterns_map_tokens]
  exact Tree.repair_keeps fixSlash path h.sound
    ⟨_, h.mem_entries_iff.mpr ⟨route, hroute, rfl⟩, hmatches⟩

end RadixRouter
