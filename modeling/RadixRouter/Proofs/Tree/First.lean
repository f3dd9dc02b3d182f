import RadixRouter.Proofs.Tree.Sound
import RadixRouter.Tree.Insert

/-!
How the routes at a sound place begin: with the first character of a label or with the wildcard
among the ways, if they do not end there.
-/

namespace RadixRouter

open Pattern

variable {α : Type}

namespace Ways

/-- Whether one of the ways begins with `token`: a label with the character, or the wildcard. -/
def BeginsWith (ways : Ways α) (token : Token) : Prop :=
  (∃ c ∈ ways.indices, token = .char c)
    ∨ token.isWild = true ∧ ways.wildcard? = some (token.write, token.isCatchAll)

theorem Sound.first_of_mem {ways : Ways α} : ∀ {above : Text}, ways.Sound above →
    ∀ entry ∈ ways.entries, ∃ token later,
      entry.tokens = token :: later ∧ ways.BeginsWith token := by
  intro above hways entry hentry
  cases ways with
  | none => simp at hentry
  | literal label next others =>
      obtain ⟨hlabel, -, hothers, -⟩ := sound_literal.mp hways
      rw [entries_literal] at hentry
      rcases List.mem_append.mp hentry with hentry | hentry
      · obtain ⟨inner, -, rfl⟩ := List.mem_map.mp hentry
        obtain ⟨c, label, rfl⟩ := List.exists_cons_of_ne_nil hlabel.ne_nil
        exact ⟨.char c, _, rfl, Or.inl ⟨c, by simp [Ways.indices], rfl⟩⟩
      · obtain ⟨token, later, htokens, hkind⟩ := first_of_mem hothers entry hentry
        refine ⟨token, later, htokens, hkind.imp_left ?_⟩
        rintro ⟨c, hc, rfl⟩
        exact ⟨c, by simp [Ways.indices, hc], rfl⟩
  | param name next =>
      rw [entries_param] at hentry
      obtain ⟨inner, -, rfl⟩ := List.mem_map.mp hentry
      exact ⟨.param name, inner.tokens, rfl, Or.inr ⟨rfl, rfl⟩⟩
  | catchAll name value pattern =>
      rw [entries_catchAll, List.mem_singleton] at hentry
      subst hentry
      exact ⟨.catchAll name, [], rfl, Or.inr ⟨rfl, rfl⟩⟩

theorem mem_entries_of_catchAll? {ways : Ways α} {name pattern : Text} {value : α}
    (h : ways.catchAll? = some (name, value, pattern)) :
    ⟨[.catchAll name], value⟩ ∈ ways.entries := by
  cases ways with
  | none => simp [catchAll?] at h
  | literal label next others =>
      have hothers := @mem_entries_of_catchAll? others _ _ _ h
      simp [hothers]
  | param name' next => simp [catchAll?] at h
  | catchAll name' value' pattern' =>
      simp only [catchAll?, Option.some.injEq, Prod.mk.injEq] at h
      simp [h]

theorem isSome_catchAll?_of_wildcard? {ways : Ways α} {existing : Text} {catchAll : Bool}
    (h : ways.wildcard? = some (existing, catchAll)) : ways.catchAll?.isSome = catchAll := by
  cases ways with
  | none => simp [wildcard?] at h
  | literal label next others => exact @isSome_catchAll?_of_wildcard? others _ _ h
  | param name next =>
      cases h
      rfl
  | catchAll name value pattern =>
      cases h
      rfl

namespace BeginsWith

variable {ways : Ways α} {token : Token}

theorem char_iff {c : Char} : ways.BeginsWith (.char c) ↔ c ∈ ways.indices := by
  simp [BeginsWith, Token.isWild]

/-- There is one wildcard at most. -/
theorem eq_wildcard (h : ways.BeginsWith token) (hwild : token.isWild = true)
    {existing : Text × Bool} (hsome : ways.wildcard? = some existing) :
    (token.write, token.isCatchAll) = existing := by
  rcases h with ⟨c, -, rfl⟩ | ⟨-, hself⟩
  · simp [Token.isWild] at hwild
  · exact Option.some.inj (hself.symm.trans hsome)

theorem isWild_eq_false (h : ways.BeginsWith token) (hnone : ways.wildcard? = Option.none) :
    token.isWild = false := by
  rcases h with ⟨c, -, rfl⟩ | ⟨-, hself⟩
  · rfl
  · simp [hnone] at hself

theorem isCatchAll_eq_false (h : ways.BeginsWith token) (hnone : ways.catchAll? = Option.none) :
    token.isCatchAll = false := by
  rcases h with ⟨c, -, rfl⟩ | ⟨-, hself⟩
  · rfl
  · have hsome := isSome_catchAll?_of_wildcard? hself
    simpa [hnone] using hsome.symm

end BeginsWith

/-- A wildcard among sound ways begins a route. -/
theorem Sound.exists_of_wildcard? {ways : Ways α} {existing : Text} {catchAll : Bool} :
    ∀ {above : Text}, ways.Sound above → ways.wildcard? = some (existing, catchAll) →
      ∃ entry ∈ ways.entries, ∃ token later,
        entry.tokens = token :: later ∧ token.isWild = true := by
  intro above hways hwild
  cases ways with
  | none => simp [wildcard?] at hwild
  | literal label next others =>
      obtain ⟨-, -, hothers, -⟩ := sound_literal.mp hways
      obtain ⟨entry, hentry, hfirst⟩ := exists_of_wildcard? hothers hwild
      exact ⟨entry, by simp [hentry], hfirst⟩
  | param name next =>
      have hnext := (sound_param.mp hways).2.1
      obtain ⟨inner, hinner⟩ := List.exists_mem_of_ne_nil _ hnext.entries_ne_nil
      refine ⟨inner.under [.param name], ?_, .param name, inner.tokens, rfl, rfl⟩
      rw [entries_param]
      exact List.mem_map_of_mem hinner
  | catchAll name value pattern =>
      exact ⟨⟨[.catchAll name], value⟩, by simp, .catchAll name, [], rfl, rfl⟩

end Ways

namespace Node

variable {above : Text} {node : Node α}

theorem Sound.ways (hsound : node.Sound above) : node.ways.Sound above := by
  cases node with
  | mk held pattern priority ways => exact (sound_mk.mp hsound).2

theorem mem_entries_of_mem_ways {entry : Entry α} (hentry : entry ∈ node.ways.entries) :
    entry ∈ node.entries := by
  cases node with
  | mk held pattern priority ways =>
      rw [entries_mk]
      exact List.mem_append_right _ hentry

/-- A route at a sound place begins with a token that one of the ways begins with. -/
theorem Sound.beginsWith (hsound : node.Sound above) : ∀ entry ∈ node.entries,
    ∀ token ∈ entry.tokens.head?, node.ways.BeginsWith token := by
  intro entry hentry token htoken
  cases node with
  | mk held pattern priority ways =>
      rw [entries_mk] at hentry
      rcases List.mem_append.mp hentry with hheld | hentry
      · obtain ⟨value, -, rfl⟩ := List.mem_map.mp hheld
        simp at htoken
      · obtain ⟨first, later, hfirst, hbegins⟩ := hsound.ways.first_of_mem entry hentry
        rw [hfirst] at htoken
        cases htoken
        exact hbegins

/-- Where no route ends, every route goes on. -/
theorem Sound.ne_nil_of_mem (hsound : node.Sound above) (hnone : node.value = none) :
    ∀ entry ∈ node.entries, entry.tokens ≠ [] := by
  intro entry hentry
  cases node with
  | mk held pattern priority ways =>
      cases (hnone : held = none)
      rw [entries_mk] at hentry
      obtain ⟨first, later, hfirst, -⟩ := hsound.ways.first_of_mem entry hentry
      simp [hfirst]

end Node

end RadixRouter
