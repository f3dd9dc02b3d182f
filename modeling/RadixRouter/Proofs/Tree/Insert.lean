import RadixRouter.Proofs.Text.Shared
import RadixRouter.Proofs.Tree.Graft

/-!
What a registration does to a sound tree: it stays sound, an accepted route is one route more, and
a refusal leaves the routes as they were, whatever label was cut on the way to it.
-/

namespace RadixRouter

open Pattern

variable {α : Type}

/-- What the outcome of a registration says about the routes before and after it. -/
def Registers (entry : Entry α) (before after : List (Entry α)) : Except RouteError Unit → Prop
  | .ok () => after.Perm (entry :: before)
  | .error _ => after = before

namespace Registers

variable {entry : Entry α} {before after : List (Entry α)} {result : Except RouteError Unit}

theorem under (front : List Token) (h : Registers entry before after result) :
    Registers (entry.under front) (before.map (Entry.under front))
      (after.map (Entry.under front)) result := by
  cases result with
  | ok _ => exact List.Perm.map (Entry.under front) h
  | error fault => exact congrArg (List.map (Entry.under front)) h

theorem append_right (back : List (Entry α)) (h : Registers entry before after result) :
    Registers entry (before ++ back) (after ++ back) result := by
  cases result with
  | ok _ => exact List.Perm.append_right back h
  | error fault => exact congrArg (· ++ back) h

theorem append_left (front : List (Entry α)) (h : Registers entry before after result) :
    Registers entry (front ++ before) (front ++ after) result := by
  cases result with
  | ok _ => exact (List.Perm.append_left front h).trans List.perm_middle
  | error fault => exact congrArg (front ++ ·) h

theorem length_le (h : Registers entry before after result) : before.length ≤ after.length := by
  cases result with
  | ok _ =>
      have := List.Perm.length_eq h
      rw [List.length_cons] at this
      omega
  | error fault => exact Nat.le_of_eq (congrArg List.length h).symm

theorem eq_of_error {fault : RouteError} (h : Registers entry before after result)
    (hresult : result = .error fault) : after = before := by
  subst hresult
  exact h

end Registers

/-- What a registration of `rest` behind `above` makes of a place. -/
structure Node.Grown (above rest : Text) (value : α) (node node' : Node α)
    (result : Except RouteError Unit) : Prop where
  sound : node'.Sound above
  registers : Registers ⟨tokens rest, value⟩ node.entries node'.entries result
  after : node.ways.AfterElement → ElementEnds rest → node'.ways.AfterElement

namespace Node

theorem Grown.refused {above rest : Text} {value : α} {node : Node α} (fault : RouteError)
    (hsound : node.Sound above) : Grown above rest value node node (.error fault) :=
  ⟨hsound, rfl, fun hafter _ => hafter⟩

/-! ### At a place -/

theorem claim_grown {above : Text} (value : α) {node : Node α} (hsound : node.Sound above) :
    Grown above [] value node (claim above value node).1 (claim above value node).2 := by
  cases node with
  | mk held pattern priority ways =>
      obtain ⟨hfields, hways⟩ := sound_mk.mp hsound
      cases held with
      | some old => exact Grown.refused _ hsound
      | none =>
          cases hcatch : ways.catchAll? with
          | some existing =>
              simp only [claim, Option.isSome_none, Bool.false_eq_true, ↓reduceIte, hcatch]
              exact Grown.refused _ hsound
          | none =>
              simp only [claim, Option.isSome_none, Bool.false_eq_true, ↓reduceIte, hcatch]
              refine ⟨sound_mk.mpr ⟨⟨by simp, ?_, by simp, by simp [hcatch]⟩, hways⟩, ?_, ?_⟩
              · simp [hfields.counted, Nat.add_comm]
              · simp [Registers]
              · exact fun hafter _ => hafter

/-- A place without a wildcard is no place for a catch-all: it leads on or holds a value, and the
refusal quotes the pattern of either. -/
theorem mountFault?_eq {above rest : Text} {node : Node α} (hsound : node.Sound above)
    (hstar : rest.head? = some '*') :
    ∃ existing,
      mountFault? above rest node = some (.catchAllConflict (above ++ rest) existing) := by
  cases node with
  | mk held pattern priority ways =>
      simp only [mountFault?, hstar, ↓reduceIte]
      cases hfirst : ways.firstPattern? with
      | some existing => exact ⟨existing, rfl⟩
      | none =>
          have hnone : ways = .none := by
            cases ways <;> simp [Ways.firstPattern?] at hfirst ⊢
          have hheld := (sound_mk.mp hsound).1.live hnone
          exact ⟨pattern, by simp [hheld]⟩

/-- A place with a way more. -/
theorem grown_of_grafted {above rest pattern : Text} {value : α} {held : Option α}
    {priority : Nat} {ways more : Ways α}
    (hsound : (Node.mk held pattern priority ways).Sound above)
    (hmore : Ways.Chained above rest value more) (hstar : rest.head? ≠ some '*')
    (hroom : Ways.Room rest ways) (hne : rest ≠ []) :
    Grown above rest value (.mk held pattern priority ways)
      (.mk held pattern (priority + 1) (ways.graft more)) (.ok ()) := by
  obtain ⟨hfields, hways⟩ := sound_mk.mp hsound
  have hgrafted := Ways.graft_grafted hmore hstar hways hroom
  refine ⟨sound_mk.mpr ⟨⟨hfields.named, ?_, ?_, ?_⟩, hgrafted.sound⟩, ?_, ?_⟩
  · rw [hgrafted.entries.length_eq, hfields.counted, List.length_cons, Nat.add_assoc]
  · intro hnone
    have := hgrafted.entries
    simp [hnone] at this
  · simp [hgrafted.alone]
  · simp only [entries_mk]
    exact (hgrafted.entries.append_left _).trans List.perm_middle
  · intro hafter hends
    have hslash : rest.head? = some '/' := by
      cases rest with
      | nil => contradiction
      | cons c rest => simp [hends c rfl]
    rcases hafter.cases with rfl | ⟨label, next, rfl, hlabel⟩
    · exact hmore.afterElement hslash
    · exact (hroom.apart '/' hslash (by simp [Ways.indices, hlabel])).elim

theorem sprout_grown {above rest : Text} (value : α) {node : Node α} (hsound : node.Sound above)
    (hfollows : Follows above rest) (hne : rest ≠ [])
    (hapart : ∀ c ∈ rest.head?, c ∉ node.ways.indices) :
    Grown above rest value node (sprout above value rest node).1
      (sprout above value rest node).2 := by
  cases node with
  | mk held pattern priority ways =>
      have hmore := Ways.chain_chained value hfollows hne rfl
      simp only [sprout]
      by_cases hmark : rest.head?.any isMark = true
      · simp only [hmark, ↓reduceIte]
        cases hwild : ways.wildcard? with
        | some existing => exact Grown.refused _ hsound
        | none =>
            cases hfault : mountFault? above rest (.mk held pattern priority ways) with
            | some fault => exact Grown.refused _ hsound
            | none =>
                have hstar : rest.head? ≠ some '*' := by
                  intro hstar
                  obtain ⟨existing, heq⟩ := mountFault?_eq hsound hstar
                  simp [hfault] at heq
                exact grown_of_grafted hsound hmore hstar
                  ⟨hapart, Ways.catchAll?_of_wildcard? hwild, fun _ => hwild⟩ hne
      · simp only [hmark, Bool.false_eq_true, ↓reduceIte]
        cases hcatch : ways.catchAll? with
        | some existing => exact Grown.refused _ hsound
        | none =>
            have hstar : rest.head? ≠ some '*' := by
              intro hstar
              simp [hstar, isMark] at hmark
            have hcolon : rest.head? ≠ some ':' := by
              intro hcolon
              simp [hcolon, isMark] at hmark
            exact grown_of_grafted hsound hmore hstar
              ⟨hapart, hcatch, fun h => (hcolon h).elim⟩ hne

theorem place_grown {above rest : Text} (value : α) {node : Node α} (hsound : node.Sound above)
    (hfollows : Follows above rest) (hapart : ∀ c ∈ rest.head?, c ∉ node.ways.indices) :
    Grown above rest value node (place above value rest node).1
      (place above value rest node).2 := by
  by_cases hrest : rest = []
  · subst hrest
    exact claim_grown value hsound
  · rw [place, if_neg hrest]
    exact sprout_grown value hsound hfollows hrest hapart

/-! ### Along a label -/

theorem split_sound {above front tail : Text} (pattern : Text) {node : Node α} (htail : Label tail)
    (hsound : node.Sound (above ++ (front ++ tail))) :
    (split pattern tail node).Sound (above ++ front) := by
  rw [← List.append_assoc] at hsound
  refine sound_mk.mpr ⟨⟨by simp, ?_, by simp, by simp [Ways.catchAll?]⟩, ?_⟩
  · simp [hsound.priority_eq]
  · exact Ways.sound_literal.mpr ⟨htail, hsound, Ways.sound_none, Ways.fork_none tail node⟩

@[simp] theorem entries_split (pattern tail : Text) (node : Node α) :
    (split pattern tail node).entries = node.entries.map (Entry.under (tail.map .char)) := by
  simp [split]

theorem along_of_follows {above label : Text} (value : α) (rest : Text) (node : Node α)
    (descend : Text → Node α × Except RouteError Unit) :
    along above value (label ++ rest) label node descend = (label, descend rest) := by
  have hparted : Text.Parted rest [] := by simp [Text.Parted]
  have hshared := Text.sharedBytes_append label hparted
  rw [List.append_nil] at hshared
  simp [along, hshared, Text.dropBytes_byteLength_append]

theorem along_of_parted {above front rest tail : Text} (value : α) (node : Node α)
    (descend : Text → Node α × Except RouteError Unit) (hparted : Text.Parted rest tail)
    (htail : tail ≠ []) :
    along above value (front ++ rest) (front ++ tail) node descend
      = (front, place (above ++ front) value rest (split (above ++ front) tail node)) := by
  have hshared := Text.sharedBytes_append front hparted
  have hshort := Text.byteLength_lt_append front htail
  simp [along, hshared, hshort, Text.takeBytes_byteLength_append,
    Text.dropBytes_byteLength_append]

/-- A registration behind a label goes on where the label leads to, or cuts the label where the
pattern leaves it. -/
theorem along_cases {rest label : Text} (above : Text) (value : α) (node : Node α)
    (descend : Text → Node α × Except RouteError Unit) (hhead : label.head? = rest.head?) :
    (∃ deeper, rest = label ++ deeper
        ∧ along above value rest label node descend = (label, descend deeper))
      ∨ ∃ front tail deeper, label = front ++ tail ∧ rest = front ++ deeper
        ∧ front ≠ [] ∧ tail ≠ [] ∧ Text.Parted deeper tail
        ∧ along above value rest label node descend
          = (front, place (above ++ front) value deeper (split (above ++ front) tail node)) := by
  obtain ⟨front, deeper, tail, hrest, hwhole, hparted⟩ := Text.exists_parting rest label
  subst hrest hwhole
  by_cases htail : tail = []
  · subst htail
    rw [List.append_nil]
    exact Or.inl ⟨deeper, rfl, along_of_follows value deeper node descend⟩
  · have hfront : front ≠ [] := by
      rintro rfl
      cases tail with
      | nil => contradiction
      | cons c tail => exact hparted c hhead.symm rfl
    exact Or.inr ⟨front, tail, deeper, rfl, rfl, hfront, htail, hparted,
      along_of_parted value node descend hparted htail⟩

/-- None of the ways from the middle of a label goes along with a pattern that left it there. -/
theorem apart_split {deeper tail : Text} (pattern : Text) (node : Node α)
    (hparted : Text.Parted deeper tail) :
    ∀ c ∈ deeper.head?, c ∉ (split pattern tail node).ways.indices := by
  intro c hc
  simpa [split, Node.ways, Ways.indices] using hparted c hc

/-- What a registration behind a label makes of the label and the place it leads to. -/
structure GrownAlong (above rest : Text) (value : α) (label : Text) (node : Node α)
    (grown : Text × Node α × Except RouteError Unit) : Prop where
  isLabel : Label grown.1
  head : grown.1.head? = label.head?
  sound : grown.2.1.Sound (above ++ grown.1)
  registers : Registers ⟨tokens rest, value⟩
    (node.entries.map (Entry.under (label.map .char)))
    (grown.2.1.entries.map (Entry.under (grown.1.map .char))) grown.2.2

theorem along_grown {above rest label : Text} (value : α) {node : Node α}
    {descend : Text → Node α × Except RouteError Unit} (hlabel : Label label)
    (hsound : node.Sound (above ++ label)) (hfollows : Follows above rest)
    (hhead : label.head? = rest.head?)
    (hdescend : ∀ deeper, Follows (above ++ label) deeper →
      Grown (above ++ label) deeper value node (descend deeper).1 (descend deeper).2) :
    GrownAlong above rest value label node (along above value rest label node descend) := by
  rcases along_cases above value node descend hhead with ⟨deeper, rfl, halong⟩
    | ⟨front, tail, deeper, rfl, rfl, hne, htail, hparted, halong⟩
  · rw [follows_append_iff hlabel.plain] at hfollows
    have hgrown := hdescend deeper hfollows
    rw [halong]
    refine ⟨hlabel, rfl, hgrown.sound, ?_⟩
    have hregisters := hgrown.registers.under (label.map .char)
    rwa [Entry.under, ← tokens_append hlabel.plain] at hregisters
  · have hfront : Plain front := hlabel.plain.left
    have htailLabel : Label tail := ⟨htail, hlabel.plain.right⟩
    rw [follows_append_iff hfront] at hfollows
    have hplaced := place_grown value (split_sound (above ++ front) htailLabel hsound)
      hfollows (apart_split _ node hparted)
    rw [halong]
    refine ⟨⟨hne, hfront⟩, ?_, hplaced.sound, ?_⟩
    · cases front with
      | nil => contradiction
      | cons c front => rfl
    · have hregisters := hplaced.registers.under (front.map .char)
      rw [Entry.under, ← tokens_append hfront, entries_split, List.map_map,
        Entry.under_comp_under, ← List.map_append] at hregisters
      exact hregisters

end Node

/-! ### Down the tree -/

/-- What a registration of `rest` along one of the ways makes of them. The last three say what the
place in front of them needs: its other labels, and the order among them, are as before. -/
structure Ways.Grown (above rest : Text) (value : α) (ways ways' : Ways α)
    (result : Except RouteError Unit) : Prop where
  sound : ways'.Sound above
  registers : Registers ⟨tokens rest, value⟩ ways.entries ways'.entries result
  after : ways.AfterElement → ways'.AfterElement
  indices : ∀ c, c ∈ ways'.indices ↔ c ∈ ways.indices
  alone : ways'.catchAll? = ways.catchAll?
  ranked : ∀ bound, (∀ count ∈ ways.counts, count ≤ bound) →
    ∀ count ∈ ways'.counts.tail, count ≤ bound
  unchanged : ∀ fault, result = .error fault → ways'.counts = ways.counts

namespace Ways

/-- The first label goes along with `rest`. -/
theorem grown_of_along {above rest label : Text} {value : α} {next : Node α} {others : Ways α}
    {grown : Text × Node α × Except RouteError Unit}
    (hways : (literal label next others).Sound above)
    (hgrown : Node.GrownAlong above rest value label next grown) :
    Grown above rest value (literal label next others) (literal grown.1 grown.2.1 others)
      grown.2.2 := by
  obtain ⟨-, hnext, hothers, hfork⟩ := sound_literal.mp hways
  obtain ⟨label', next', result⟩ := grown
  obtain ⟨hlabel', hhead, hnext', hregisters⟩ := hgrown
  simp only at hlabel' hhead hnext' hregisters ⊢
  have hlength : next.priority ≤ next'.priority := by
    simpa [hnext.priority_eq, hnext'.priority_eq] using hregisters.length_le
  refine ⟨sound_literal.mpr ⟨hlabel', hnext', hothers, ?_, ?_, hfork.alone⟩, ?_, ?_, ?_, rfl,
    ?_, ?_⟩
  · rw [hhead]
    exact hfork.apart
  · exact fun count hcount => Nat.le_trans (hfork.ranked count hcount) hlength
  · simp only [entries_literal]
    exact hregisters.append_right others.entries
  · intro hafter
    rcases hafter.cases with hnone | ⟨label, next, heq, hslash⟩
    · contradiction
    · cases heq
      exact hhead.trans hslash
  · intro c
    simp [Ways.indices, hhead]
  · intro bound hbound count hcount
    exact hbound count (List.mem_cons_of_mem next.priority hcount)
  · intro fault hfault
    have := congrArg List.length (hregisters.eq_of_error hfault)
    rw [List.length_map, List.length_map, ← hnext.priority_eq, ← hnext'.priority_eq] at this
    simp [counts, this]

/-- One of the labels behind the first one goes along with `rest`. -/
theorem grown_of_others {above rest label : Text} {value : α} {next : Node α}
    {others others' : Ways α} {result : Except RouteError Unit}
    (hways : (literal label next others).Sound above) (hne : others ≠ none)
    (hgrown : Grown above rest value others others' result) :
    Grown above rest value (literal label next others) (rank label next others') result := by
  obtain ⟨hlabel, hnext, hothers, hfork⟩ := sound_literal.mp hways
  have hapart : ∀ c ∈ label.head?, c ∉ others'.indices := by
    intro c hc hmem
    exact hfork.apart c hc ((hgrown.indices c).mp hmem)
  have hranked := hgrown.ranked next.priority hfork.ranked
  refine ⟨?_, ?_, ?_, ?_, ?_, ?_, ?_⟩
  · exact rank_sound hlabel hnext hgrown.sound hapart (hgrown.alone.trans hfork.alone) hranked
  · have hregisters := hgrown.registers.append_left
      (next.entries.map (Entry.under (label.map .char)))
    cases result with
    | ok _ =>
        have hrank := entries_rank label next others'
        rw [entries_literal] at hrank
        rw [entries_literal]
        exact hrank.trans hregisters
    | error fault =>
        have hcounts : ∀ count ∈ others'.counts, count ≤ next.priority := by
          rw [hgrown.unchanged fault rfl]
          exact hfork.ranked
        rw [rank_eq_literal hcounts, entries_literal, entries_literal]
        exact hregisters
  · intro hafter
    rcases hafter.cases with hnone | ⟨label, next, heq, hslash⟩
    · contradiction
    · cases heq
      contradiction
  · intro c
    rw [mem_indices_rank]
    simp [Ways.indices, hgrown.indices c]
  · rw [catchAll?_rank]
    exact hgrown.alone
  · intro bound hbound
    simp only [counts, List.mem_cons, forall_eq_or_imp] at hbound
    exact counts_rank_tail hbound.1 (hgrown.ranked bound hbound.2)
  · intro fault hfault
    have hcounts := hgrown.unchanged fault hfault
    rw [rank_eq_literal (by rw [hcounts]; exact hfork.ranked)]
    simp [counts, hcounts]

/-- The parameter goes along with `rest`. -/
theorem grown_of_param {above name rest : Text} {value : α} {next next' : Node α}
    {result : Except RouteError Unit} (hways : (param name next).Sound above)
    (hends : ElementEnds rest)
    (hgrown : Node.Grown (above ++ ':' :: name) rest value next next' result) :
    Grown above (':' :: (name ++ rest)) value (param name next) (param name next') result := by
  obtain ⟨hname, hnext, hafter⟩ := sound_param.mp hways
  refine ⟨sound_param.mpr ⟨hname, hgrown.sound, hgrown.after hafter hends⟩, ?_, ?_, ?_, rfl,
    ?_, ?_⟩
  · simp only [entries_param]
    have hregisters := hgrown.registers.under [.param name]
    rwa [Entry.under, List.singleton_append, ← tokens_param hname.no_slash hends] at hregisters
  · exact fun h => h.elim
  · simp [Ways.indices]
  · simp [counts]
  · simp [counts]

theorem apart_of_follow_eq_none {above rest : Text} {value : α} {ways : Ways α}
    (hnone : ways.follow above value rest = Option.none) : ∀ c ∈ rest.head?, c ∉ ways.indices := by
  cases ways with
  | none => simp [Ways.indices]
  | literal label next others =>
      rw [follow] at hnone
      split at hnone
      · contradiction
      · next hhead =>
          rw [Option.map_eq_none_iff] at hnone
          intro c hc hmem
          simp only [Ways.indices, List.mem_append] at hmem
          rcases hmem with hself | hmem
          · have hlabel : label.head? = some c := by simpa using hself
            exact hhead (hlabel.trans hc.symm)
          · exact apart_of_follow_eq_none hnone c hc hmem
  | param name next => simp [Ways.indices]
  | catchAll name value' pattern => simp [Ways.indices]

/-- A registration that goes along a label goes along the first one that begins as it does. -/
theorem follow_literal_eq_some {above label rest : Text} {value : α} {next : Node α}
    {others ways' : Ways α} {result : Except RouteError Unit}
    (hfollow : (literal label next others).follow above value rest = some (ways', result)) :
    (label.head? = rest.head?
        ∧ ways' = literal
          (Node.along above value rest label next (next.insert (above ++ label) value)).1
          (Node.along above value rest label next (next.insert (above ++ label) value)).2.1 others
        ∧ result = (Node.along above value rest label next (next.insert (above ++ label) value)).2.2)
      ∨ label.head? ≠ rest.head? ∧ ∃ others',
        others.follow above value rest = some (others', result) ∧ ways' = rank label next others' := by
  rw [follow] at hfollow
  split at hfollow
  · next hhead =>
      cases hfollow
      exact Or.inl ⟨hhead, rfl, rfl⟩
  · next hhead =>
      obtain ⟨⟨others', result'⟩, hothers, heq⟩ := Option.map_eq_some_iff.mp hfollow
      cases heq
      exact Or.inr ⟨hhead, others', hothers, rfl⟩

/-- A registration that goes along the parameter among the ways goes on behind its element. -/
theorem follow_param_eq_some {above name rest : Text} {value : α} {next : Node α} {ways' : Ways α}
    {result : Except RouteError Unit} (hname : Name name) (hfollows : Follows above rest)
    (hfollow : (param name next).follow above value rest = some (ways', result)) :
    ∃ deeper, rest = ':' :: (name ++ deeper) ∧ ElementEnds deeper
      ∧ Follows (above ++ ':' :: name) deeper
      ∧ ways' = param name (next.insert (above ++ ':' :: name) value deeper).1
      ∧ result = (next.insert (above ++ ':' :: name) value deeper).2 := by
  rw [follow] at hfollow
  split at hfollow
  · next hsame =>
      cases hfollow
      have hends := elementEnds_fromNext rest
      have hwhole := eq_param_of_upTo hsame
      have hdeeper := (hwhole ▸ hfollows).tail_of_param hname.no_slash hends
      exact ⟨_, hwhole, hends, hdeeper.2, rfl, rfl⟩
  · contradiction

end Ways

/-- The place in front of ways that a registration went along. -/
theorem Node.grown_of_ways {above rest pattern : Text} {value : α} {held : Option α}
    {priority priority' : Nat} {ways ways' : Ways α} {result : Except RouteError Unit}
    (hsound : (Node.mk held pattern priority ways).Sound above)
    (hgrown : Ways.Grown above rest value ways ways' result)
    (hpriority : priority' = held.toList.length + ways'.entries.length) :
    Node.Grown above rest value (.mk held pattern priority ways)
      (.mk held pattern priority' ways') result := by
  obtain ⟨hfields, hways⟩ := sound_mk.mp hsound
  refine ⟨sound_mk.mpr ⟨⟨hfields.named, hpriority, ?_, ?_⟩, hgrown.sound⟩, ?_, ?_⟩
  · rintro rfl
    apply hfields.live
    have hlength := hgrown.registers.length_le
    simp only [Ways.entries_none, List.length_nil, Nat.le_zero_eq,
      List.length_eq_zero_iff] at hlength
    exact Classical.byContradiction fun hne => hways.entries_ne_nil hne hlength
  · rw [hgrown.alone]
    exact hfields.mount
  · simp only [entries_mk]
    exact hgrown.registers.append_left _
  · exact fun hafter _ => hgrown.after hafter

/-- A registration is handed on if one of the ways goes along with it, and else made at the place. -/
theorem Node.insert_cases (above : Text) (value : α) (rest : Text) (held : Option α) (pattern : Text)
    (priority : Nat) (ways : Ways α) :
    ((rest ≠ [] → ways.follow above value rest = none) ∧ (∀ c ∈ rest.head?, c ∉ ways.indices)
        ∧ (Node.mk held pattern priority ways).insert above value rest
          = place above value rest (.mk held pattern priority ways))
      ∨ ∃ ways' result, rest ≠ [] ∧ ways.follow above value rest = some (ways', result)
        ∧ (Node.mk held pattern priority ways).insert above value rest
          = (.mk held pattern (if result.isOk then priority + 1 else priority) ways', result) := by
  rw [Node.insert, place]
  by_cases hrest : rest = []
  · simp [hrest]
  · rw [if_neg hrest, if_neg hrest]
    cases hfollow : ways.follow above value rest with
    | none => exact Or.inl ⟨fun _ => rfl, Ways.apart_of_follow_eq_none hfollow, rfl⟩
    | some grown =>
        obtain ⟨ways', result⟩ := grown
        refine Or.inr ⟨ways', result, hrest, rfl, ?_⟩
        cases result <;> rfl

-- Induction on the tree: a place hands the registration on to its ways, a way to the place that it
-- leads to.
mutual

theorem Node.insert_grown {node : Node α} :
    ∀ {above rest : Text} (value : α), node.Sound above → Follows above rest →
      Node.Grown above rest value node (node.insert above value rest).1
        (node.insert above value rest).2 := by
  intro above rest value hsound hfollows
  cases node with
  | mk held pattern priority ways =>
      rcases Node.insert_cases above value rest held pattern priority ways with
        ⟨-, hapart, hinsert⟩ | ⟨ways', result, hrest, hfollow, hinsert⟩
      · rw [hinsert]
        exact Node.place_grown value hsound hfollows hapart
      · rw [hinsert]
        obtain ⟨hfields, hways⟩ := Node.sound_mk.mp hsound
        have hgrown := Ways.follow_grown value hways hfollows hrest hfollow
        apply Node.grown_of_ways hsound hgrown
        have hregisters := hgrown.registers
        cases result with
        | ok _ =>
            rw [hfields.counted, List.Perm.length_eq hregisters, List.length_cons]
            rfl
        | error fault =>
            rw [hfields.counted, hregisters.eq_of_error rfl]
            rfl

theorem Ways.follow_grown {ways : Ways α} :
    ∀ {above rest : Text} (value : α) {ways' : Ways α} {result : Except RouteError Unit},
      ways.Sound above → Follows above rest → rest ≠ [] →
      ways.follow above value rest = some (ways', result) →
      Ways.Grown above rest value ways ways' result := by
  intro above rest value ways' result hways hfollows hne hfollow
  cases ways with
  | none => simp [Ways.follow] at hfollow
  | literal label next others =>
      obtain ⟨hlabel, hnext, hothers, -⟩ := Ways.sound_literal.mp hways
      rcases Ways.follow_literal_eq_some hfollow with
        ⟨hhead, rfl, rfl⟩ | ⟨-, others', hothersFollow, rfl⟩
      · apply Ways.grown_of_along hways
        exact Node.along_grown value hlabel hnext hfollows hhead
          fun deeper hdeeper => Node.insert_grown value hnext hdeeper
      · have hgrown := Ways.follow_grown value hothers hfollows hne hothersFollow
        apply Ways.grown_of_others hways _ hgrown
        rintro rfl
        simp [Ways.follow] at hothersFollow
  | param name next =>
      obtain ⟨hname, hnext, -⟩ := Ways.sound_param.mp hways
      obtain ⟨deeper, rfl, hends, hdeeper, rfl, rfl⟩ :=
        Ways.follow_param_eq_some hname hfollows hfollow
      exact Ways.grown_of_param hways hends (Node.insert_grown value hnext hdeeper)
  | catchAll name value' pattern => simp [Ways.follow] at hfollow

end

end RadixRouter
