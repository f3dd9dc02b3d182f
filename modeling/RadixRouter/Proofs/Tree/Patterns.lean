import RadixRouter.Proofs.Pattern.Clash
import RadixRouter.Proofs.Tree.First
import RadixRouter.Proofs.Tree.History

/-!
The list of patterns of a sound tree: what is noted at its places are the patterns of the routes
that end there, and nothing else.
-/

namespace RadixRouter

open Pattern

variable {α : Type}

/-- The pattern of a route that goes on behind `above`. -/
def Entry.written (above : Text) (entry : Entry α) : Text :=
  above ++ entry.tokens.flatMap Token.write

@[simp] theorem Entry.written_comp_under (above : Text) (front : List Token) :
    (written above ∘ under front : Entry α → Text)
      = written (above ++ front.flatMap Token.write) := by
  funext entry
  simp [written]

theorem Entry.written_under_label (above label : Text) (entry : Entry α) :
    (entry.under (label.map .char)).written above = entry.written (above ++ label) := by
  simp [written, flatMap_write_char]

theorem Entry.written_under_param (above name : Text) (entry : Entry α) :
    (entry.under [.param name]).written above = entry.written (above ++ ':' :: name) := by
  simp [written, Token.write]

theorem Pattern.Token.write_ne_nil (token : Token) : token.write ≠ [] := by
  cases token <;> simp [Token.write]

theorem Entry.written_eq_iff {above : Text} {entry : Entry α} :
    entry.written above = above ↔ entry.tokens = [] := by
  rw [written, List.append_right_eq_self, List.flatMap_eq_nil_iff, List.eq_nil_iff_forall_not_mem]
  exact forall₂_congr fun token _ => iff_of_false token.write_ne_nil id

/-- A route along sound ways is written with a character that one of the ways begins with. -/
theorem Ways.Sound.written_of_mem {above : Text} {ways : Ways α} (hways : ways.Sound above) :
    ∀ entry ∈ ways.entries, ∃ c back, entry.written above = above ++ c :: back
      ∧ (c ∈ ways.indices ∨ isMark c = true) := by
  intro entry hentry
  obtain ⟨token, later, htokens, hbegins⟩ := hways.first_of_mem entry hentry
  rw [Entry.written, htokens, List.flatMap_cons]
  cases token with
  | char c => exact ⟨c, _, rfl, Or.inl (BeginsWith.char_iff.mp hbegins)⟩
  | param name => exact ⟨':', _, rfl, Or.inr rfl⟩
  | catchAll name => exact ⟨'*', _, rfl, Or.inr rfl⟩

/-- The first label begins with a character that begins none of the other ways. -/
theorem Ways.Fork.head_ne {c d : Char} {label : Text} {next : Node α} {others : Ways α}
    (hfork : Fork (c :: label) next others) (hlabel : Label (c :: label))
    (hd : d ∈ others.indices ∨ isMark d = true) : c ≠ d := by
  rintro rfl
  rcases hd with hindex | hmark
  · exact hfork.apart c rfl hindex
  · simp [hlabel.plain c List.mem_cons_self] at hmark

/-- What goes on along the first label is not written as what goes on along the other ways. -/
theorem Ways.Fork.append_ne {above label back back' : Text} {next : Node α} {others : Ways α}
    {d : Char} (hfork : Fork label next others) (hlabel : Label label)
    (hd : d ∈ others.indices ∨ isMark d = true) :
    above ++ label ++ back ≠ above ++ d :: back' := by
  obtain ⟨c, label, rfl⟩ := List.exists_cons_of_ne_nil hlabel.ne_nil
  intro heq
  rw [List.append_assoc, List.cons_append] at heq
  exact hfork.head_ne hlabel hd (List.cons.inj (List.append_cancel_left heq)).1

-- Induction on the tree: the pattern noted at a place is the front that leads to it.
mutual

theorem Node.Sound.patterns_eq {node : Node α} : ∀ {above : Text}, node.Sound above →
    node.patterns = node.entries.map (Entry.written above) := by
  intro above hsound
  cases node with
  | mk held pattern priority ways =>
      obtain ⟨hfields, hways⟩ := Node.sound_mk.mp hsound
      rw [Node.patterns, Node.entries_mk, List.map_append, Ways.Sound.patterns_eq hways]
      cases held with
      | none => rfl
      | some value => simp [Entry.written, hfields.named rfl]

theorem Ways.Sound.patterns_eq {ways : Ways α} : ∀ {above : Text}, ways.Sound above →
    ways.patterns = ways.entries.map (Entry.written above) := by
  intro above hways
  cases ways with
  | none => simp [Ways.patterns]
  | literal label next others =>
      obtain ⟨-, hnext, hothers, -⟩ := Ways.sound_literal.mp hways
      rw [Ways.patterns, Ways.entries_literal, List.map_append, List.map_map,
        Entry.written_comp_under, flatMap_write_char, Node.Sound.patterns_eq hnext,
        Ways.Sound.patterns_eq hothers]
  | param name next =>
      have hnext := (Ways.sound_param.mp hways).2.1
      rw [Ways.patterns, Ways.entries_param, List.map_map, Entry.written_comp_under,
        Node.Sound.patterns_eq hnext]
      simp [Token.write]
  | catchAll name value pattern =>
      have hpattern := (Ways.sound_catchAll.mp hways).2
      simp [Ways.patterns, Entry.written, Token.write, hpattern]

end

namespace Tree

variable {tree : Tree α} {routes : List (Text × α)}

theorem Sound.patterns_eq (hsound : tree.Sound) :
    tree.patterns = tree.entries.map (Entry.written []) := by
  cases tree with
  | empty => rfl
  | root label node =>
      have hnode := hsound.2.2
      rw [Tree.patterns, Tree.entries, List.map_map, Entry.written_comp_under, flatMap_write_char,
        hnode.patterns_eq, List.nil_append]

/-- A tree lists the patterns of its routes, each route once. -/
theorem Holds.patterns_perm (h : tree.Holds routes) :
    tree.patterns.Perm (routes.map Prod.fst) := by
  have hwritten : Entry.written [] ∘ Entry.ofRoute = (Prod.fst : Text × α → Text) := by
    funext route
    simp [Entry.written, Entry.ofRoute, flatMap_write_tokens]
  have hperm := h.entries.map (Entry.written [])
  rwa [← h.sound.patterns_eq, List.map_map, hwritten] at hperm

/-- The patterns that a tree lists have the tokens of its routes, in the same order. -/
theorem Holds.patterns_map_tokens (h : tree.Holds routes) :
    tree.patterns.map tokens = tree.entries.map Entry.tokens := by
  rw [h.sound.patterns_eq, List.map_map]
  apply List.map_congr_left
  intro entry hentry
  obtain ⟨route, -, rfl⟩ := h.mem_entries_iff.mp hentry
  simp [Entry.written, Entry.ofRoute, flatMap_write_tokens]

/-- The priority of a tree is the number of the patterns that it lists. -/
theorem Sound.priority_eq (hsound : tree.Sound) : tree.priority = tree.patterns.length := by
  rw [hsound.patterns_eq, List.length_map]
  cases tree with
  | empty => rfl
  | root label node =>
      rw [Tree.priority, Tree.entries, List.length_map, hsound.2.2.priority_eq]

end Tree

end RadixRouter
