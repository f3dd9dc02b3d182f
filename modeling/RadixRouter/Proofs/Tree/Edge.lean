import RadixRouter.Proofs.Tree.Arrival
import RadixRouter.Proofs.Tree.History

/-!
Edges are cut between characters. Registration over the plain fields of a tree, with its cuts at
byte offsets, always comes to a result, and to the tree that registration along the characters
makes. So the rules of the places of a tree hold of the fields that registrations leave.
-/

namespace RadixRouter

open Pattern

variable {α : Type}

namespace Record

/-! ### Along an edge -/

/-- What a cut in front of `tail` takes off a place: all that it was, behind a label of its own. -/
def cutOff (tail : Text) (place : Record α) : Record α :=
  { place with segment := tail, kind := .literal, name := none }

/-- A place after its segment is cut behind `front`. -/
def halved (above front tail : Text) (place : Record α) : Record α :=
  { place with
    segment := front
    wildChild := false
    indices := tail.head?.toList
    children := [(place.cutOff tail).layout]
    value := none
    pattern := above ++ front }

/-- A segment that the pattern leaves is cut where its characters part from those of the pattern. -/
theorem split?_of_parted (above rest : Text) {front tail : Text} {place : Record α}
    (hsegment : place.segment = front ++ tail) (htail : tail ≠ []) :
    place.split? (above ++ (front ++ rest)) (Text.byteLength above) (Text.byteLength front)
      = some (place.halved above front tail) := by
  have hless := Text.byteLength_lt_append front htail
  have hnoted : Text.upToByte? (Text.byteLength above + Text.byteLength front)
      (above ++ (front ++ rest)) = some (above ++ front) := by
    rw [← Text.byteLength_append, ← List.append_assoc, Text.upToByte?_append]
  simp only [split?, hsegment, hless, ↓reduceIte, hnoted, Text.fromByte?_append,
    Text.upToByte?_append, Option.bind_eq_bind, Option.bind_some, halved, cutOff]

theorem halved_layout (above front tail : Text) (kind : NodeKind) (node : Node α) :
    (node.layout (front ++ tail) kind none).record.halved above front tail
      = ((node.split (above ++ front) tail).layout front kind none).record := by
  cases node
  simp [halved, cutOff, Node.split, Node.priority, Ways.hasWildcard, Ways.indices, Ways.layouts,
    Node.layout, layout]

theorem split?_eq_self (pattern : Text) (depth : Nat) (place : Record α) :
    place.split? pattern depth (Text.byteLength place.segment) = some place :=
  if_neg (Nat.lt_irrefl _)

/-- Where a label is cut no way goes along with the rest of the pattern. -/
theorem insert_split {rest tail : Text} (above pattern : Text) (value : α) (node : Node α)
    (hparted : Text.Parted rest tail) (htail : tail ≠ []) :
    (node.split pattern tail).insert above value rest
      = (node.split pattern tail).place above value rest := by
  rcases Node.insert_cases above value rest none pattern node.priority
      (.literal tail node .none) with
    ⟨-, -, hinsert⟩ | ⟨ways', result, -, hfollow, -⟩
  · exact hinsert
  · have hhead : tail.head? ≠ rest.head? := by
      obtain ⟨c, tail, rfl⟩ := List.exists_cons_of_ne_nil htail
      intro heq
      exact hparted c heq.symm rfl
    rw [Ways.follow, if_neg hhead] at hfollow
    contradiction

/-- Registering behind a segment that the pattern shares `front` with. -/
theorem addWithin?_of_split {above front rest segment : Text} {kind : NodeKind} {name : Option Text}
    {value : α} {rounds : Nat} {place : Layout α} {node : Node α}
    (hshared : Text.sharedBytes (front ++ rest) place.record.segment = Text.byteLength front)
    (hsplit : place.record.split? (above ++ (front ++ rest)) (Text.byteLength above)
      (Text.byteLength front) = some (node.layout segment kind name).record)
    (hsound : node.Sound (above ++ front)) (hfollows : Follows (above ++ front) rest)
    (hagrees : Agrees (above ++ front) rest value (addWithin? (above ++ front ++ rest) value rounds
      (Text.byteLength (above ++ front)) rest)) :
    addWithin? (above ++ (front ++ rest)) value (rounds + 1) (Text.byteLength above) (front ++ rest)
        place
      = some ((node.insert (above ++ front) value rest).1.layout segment kind name,
          (node.insert (above ++ front) value rest).2) := by
  simp only [addWithin?, Text.sharedOffset_eq, hshared, hsplit, Option.bind_eq_bind,
    Option.bind_some]
  cases node with
  | mk held pattern priority ways =>
      by_cases hrest : rest = []
      · subst hrest
        rw [List.append_nil, if_pos rfl, claim_eq, Node.insert, if_pos rfl, Layout.layout_record]
      · have hmore := Nat.ne_of_lt (Text.byteLength_lt_append front hrest)
        have hplace := addRest?_eq segment kind name hsound hfollows hrest hagrees
        rw [← List.append_assoc, ← Text.byteLength_append, if_neg hmore, Text.fromByte?_append,
          Option.bind_some, hplace, Option.bind_some, Layout.layout_record]

/-- Registering behind a segment that the pattern goes on with, which is left in one piece. -/
theorem addWithin?_of_whole {above segment rest : Text} {name : Option Text} {value : α}
    {rounds : Nat} {node : Node α} (kind : NodeKind) (hsound : node.Sound (above ++ segment))
    (hfollows : Follows (above ++ segment) rest)
    (hagrees : Agrees (above ++ segment) rest value (addWithin? (above ++ segment ++ rest) value
      rounds (Text.byteLength (above ++ segment)) rest)) :
    addWithin? (above ++ (segment ++ rest)) value (rounds + 1) (Text.byteLength above)
        (segment ++ rest) (node.layout segment kind name)
      = some ((node.insert (above ++ segment) value rest).1.layout segment kind name,
          (node.insert (above ++ segment) value rest).2) := by
  have hshared := Text.sharedBytes_append segment (by simp [Text.Parted] : Text.Parted rest [])
  have hself := split?_eq_self (above ++ (segment ++ rest)) (Text.byteLength above)
    (node.layout segment kind name).record
  rw [List.append_nil] at hshared
  rw [Node.segment_record] at hself
  apply addWithin?_of_split _ hself hsound hfollows hagrees
  rw [Node.segment_record, hshared]

/-- Whether so many rounds suffice wherever less than so many characters are left. -/
def Suffices (value : α) (rounds : Nat) : Prop :=
  ∀ {above rest : Text}, Follows above rest → rest.length < rounds →
    Agrees above rest value (addWithin? (above ++ rest) value rounds (Text.byteLength above) rest)

/-- One round more, along a label: it is followed to its end, or cut where the pattern leaves it. -/
theorem Suffices.along_label {value : α} {rounds : Nat} (hsuffices : Suffices value rounds)
    {above rest label : Text} {next : Node α} (kind : NodeKind) (hlabel : Label label)
    (hnext : next.Sound (above ++ label)) (hhead : label.head? = rest.head?)
    (hfollows : Follows above rest) (hrounds : rest.length < rounds + 1) :
    addWithin? (above ++ rest) value (rounds + 1) (Text.byteLength above) rest
        (next.layout label kind none)
      = some
        ((Node.along above value rest label next (next.insert (above ++ label) value)).2.1.layout
          (Node.along above value rest label next (next.insert (above ++ label) value)).1 kind none,
          (Node.along above value rest label next (next.insert (above ++ label) value)).2.2) := by
  rcases Node.along_cases above value next (next.insert (above ++ label) value) hhead with
    ⟨deeper, rfl, halong⟩ | ⟨front, tail, deeper, rfl, rfl, hne, htail, hparted, halong⟩
  · rw [follows_append_iff hlabel.plain] at hfollows
    have hshorter : deeper.length < rounds := by
      have := List.length_pos_iff.mpr hlabel.ne_nil
      rw [List.length_append] at hrounds
      omega
    rw [halong]
    exact addWithin?_of_whole kind hnext hfollows (hsuffices hfollows hshorter)
  · have hfront : Plain front := hlabel.plain.left
    rw [follows_append_iff hfront] at hfollows
    have hsound := Node.split_sound (above ++ front) ⟨htail, hlabel.plain.right⟩ hnext
    have hshorter : deeper.length < rounds := by
      have := List.length_pos_iff.mpr hne
      rw [List.length_append] at hrounds
      omega
    rw [halong, ← insert_split (above ++ front) (above ++ front) value next hparted htail]
    apply addWithin?_of_split _ _ hsound hfollows (hsuffices hfollows hshorter)
    · rw [Node.segment_record, Text.sharedBytes_append front hparted]
    · rw [split?_of_parted above deeper (Node.segment_record _ _ _ _) htail, halved_layout]

/-- One round more, along the parameter, which is followed to its end. -/
theorem Suffices.along_param {value : α} {rounds : Nat} (hsuffices : Suffices value rounds)
    {above rest name : Text} {next : Node α} (hname : Name name)
    (hnext : next.Sound (above ++ ':' :: name)) (hsame : Text.upTo '/' rest = ':' :: name)
    (hfollows : Follows above rest) (hrounds : rest.length < rounds + 1) :
    addWithin? (above ++ rest) value (rounds + 1) (Text.byteLength above) rest
        (next.layout (':' :: name) .param (some name))
      = some
        ((next.insert (above ++ ':' :: name) value (Text.fromNext '/' rest)).1.layout (':' :: name)
          .param (some name),
          (next.insert (above ++ ':' :: name) value (Text.fromNext '/' rest)).2) := by
  have hwhole := eq_param_of_upTo hsame
  have hends := elementEnds_fromNext rest
  generalize Text.fromNext '/' rest = deeper at hwhole hends
  subst hwhole
  have hdeeper := (hfollows.tail_of_param hname.no_slash hends).2
  have hshorter : deeper.length < rounds := by
    rw [List.length_cons, List.length_append] at hrounds
    omega
  exact addWithin?_of_whole .param hnext hdeeper (hsuffices hdeeper hshorter)

/-- A round for each character that is left suffices. -/
theorem suffices_rounds (value : α) (rounds : Nat) : Suffices value rounds := by
  -- A round is spent on a segment, and no segment is empty, so less is left for the rounds behind.
  induction rounds with
  | zero => exact fun _ hrounds => (Nat.not_lt_zero _ hrounds).elim
  | succ rounds ih =>
      intro above rest hfollows hrounds
      refine ⟨?_, ?_⟩
      · intro label next hlabel hnext hhead
        exact ih.along_label .literal hlabel hnext hhead hfollows hrounds
      · intro name next hname hnext hsame
        exact ih.along_param hname hnext hsame hfollows hrounds

/-! ### The children of an edge that was cut -/

/-- A place at which an edge was cut for a new child: its children are the half that was cut off and
the new one, under different index characters. -/
structure Forked (grown half sibling : Layout α) (d c : Char) : Prop where
  children : grown.record.children.Perm [half, sibling]
  indices : grown.record.indices.Perm [d, c]
  half : half.record.segment.head? = some d
  sibling : sibling.record.segment.head? = some c
  apart : d ≠ c

/-- In front of a cut there are no other children, so the new child is put beside the half. -/
theorem addLiteral?_halved (place : Record α) (above front pattern : Text) {tail rest : Text}
    {c d : Char} (register : Layout α → Option (Layout α × Except RouteError Unit)) (value : α)
    (htail : tail.head? = some d) (hrest : rest.head? = some c) (hc : isMark c = false)
    (hapart : d ≠ c) :
    ∃ grown sibling, (place.halved above front tail).addLiteral? register pattern value c rest
        = some (grown, .ok ())
      ∧ Forked grown.layout (place.cutOff tail).layout sibling d c := by
  obtain ⟨label, next, -, hlabel, hone, hled⟩ := led_blank pattern value hrest hc
  have hgrow : (blank .literal pattern).grow? pattern value rest
      = some (next.layout label .literal none).record := by
    rw [grow?_eq, hled]
  have hposition : [d].idxOf? c = none := by
    rw [List.idxOf?_eq_none_iff, List.mem_singleton]
    exact Ne.symm hapart
  have hpriority : (next.layout label .literal none).record.priority = 1 := by
    rw [Node.priority_record, hone]
  have hsegment := Node.segment_record next label .literal none
  generalize next.layout label .literal none = sibling at hgrow hpriority hsegment
  simp only [addLiteral?, halved, htail, Option.toList_some, hposition, catchAllChild?,
    Bool.false_eq_true, ↓reduceIte, hgrow, Layout.layout_record, Option.bind_eq_bind,
    Option.bind_some, counted, List.length_singleton]
  have hhead : (place.cutOff tail).layout.record.segment.head? = some d := htail
  have hsibling : sibling.record.segment.head? = some c := by rwa [hsegment]
  -- Of a place by itself it is not known that it leads to any route; if it leads to none, the new
  -- child goes in front of the half.
  generalize (place.cutOff tail).layout = half at hhead ⊢
  by_cases hless : half.record.priority < 1
  · refine ⟨⟨front, place.kind, place.name, false, [c, d], [sibling, half], place.priority + 1,
      none, above ++ front⟩, sibling, by simp [reorder?, promote?, hpriority, hless], ?_⟩
    exact ⟨List.Perm.swap _ _ _, List.Perm.swap _ _ _, hhead, hsibling, hapart⟩
  · refine ⟨⟨front, place.kind, place.name, false, [d, c], [half, sibling], place.priority + 1,
      none, above ++ front⟩, sibling, by simp [reorder?, promote?, hpriority, hless], ?_⟩
    exact ⟨List.Perm.refl _, List.Perm.refl _, hhead, hsibling, hapart⟩

/-- Where the pattern leaves a segment with a literal character, the new child never has the index
character of the half that is cut off. -/
theorem exists_forked (place : Layout α) (above path : Text) (value : α) (rounds : Nat) {c : Char}
    {rest : Text}
    (hcut : Text.sharedBytes path place.record.segment < Text.byteLength place.record.segment)
    (hrest : Text.fromByte? (Text.sharedBytes path place.record.segment) path = some (c :: rest))
    (hc : isMark c = false) :
    ∃ tail grown sibling d,
      Text.fromByte? (Text.sharedBytes path place.record.segment) place.record.segment = some tail
        ∧ addWithin? (above ++ path) value (rounds + 1) (Text.byteLength above) path place
          = some (grown, .ok ())
        ∧ Forked grown (place.record.cutOff tail).layout sibling d c := by
  obtain ⟨front, behind, tail, rfl, hsegment, hparted⟩ :=
    Text.exists_parting path place.record.segment
  have hshared := Text.sharedBytes_append front hparted
  have hbehind : Text.fromByte? (Text.sharedBytes (front ++ behind) place.record.segment)
      place.record.segment = some tail := by
    rw [hsegment, hshared, Text.fromByte?_append]
  rw [hsegment, hshared] at hcut hrest
  rw [Text.fromByte?_append, Option.some.injEq] at hrest
  subst hrest
  have htail : tail ≠ [] := by
    rintro rfl
    rw [List.append_nil] at hcut
    exact Nat.lt_irrefl _ hcut
  obtain ⟨d, tail, rfl⟩ := List.exists_cons_of_ne_nil htail
  have hapart : d ≠ c := by
    rintro rfl
    exact hparted d rfl rfl
  have hmore := Nat.ne_of_lt (Text.byteLength_lt_append front (List.cons_ne_nil c rest))
  obtain ⟨grown, sibling, hadd, hforked⟩ :=
    addLiteral?_halved place.record above front (above ++ (front ++ c :: rest))
      (addWithin? (above ++ (front ++ c :: rest)) value rounds
        (Text.byteLength above + Text.byteLength front) (c :: rest))
      value (List.head?_cons (l := tail)) (List.head?_cons (l := rest)) hc hapart
  refine ⟨_, grown.layout, sibling, d, hbehind, ?_, hforked⟩
  simp only [addWithin?, Text.sharedOffset_eq, hsegment, hshared,
    split?_of_parted above (c :: rest) hsegment htail, if_neg hmore, Text.fromByte?_append,
    addRest?, List.head?_cons, hc, Bool.false_eq_true, ↓reduceIte, hadd, Option.bind_eq_bind,
    Option.bind_some]

end Record

namespace Tree

/-- A first route is planted field by field. -/
theorem grow?_empty {pattern : Text} (value : α) (hhead : pattern.head? = some '/') :
    ∃ planted, (empty : Tree α).layout.record.grow? pattern value pattern = some planted
      ∧ { planted with kind := .root }.layout = (plant pattern value).layout := by
  have hcounted : (empty : Tree α).layout.record.counted
      = ⟨[], .root, none, false, [], [], 1, none, []⟩ := rfl
  refine ⟨_, Record.grow?_eq pattern value pattern _, ?_⟩
  rw [hcounted]
  rcases Record.chain_cases pattern value hhead rfl with
    ⟨hcut, hchain⟩ | ⟨c, hcut, hne, -, hchain⟩
  · simp [Record.led, hcut, plant, hchain, layout, Node.leaf, Node.layout, Ways.hasWildcard,
      Ways.indices, Ways.layouts, Record.layout]
  · obtain ⟨hwild, hindices⟩ := Record.wildOf_fields pattern value c
    simp [Record.led, hcut, hne, plant, hchain, layout, Node.layout, hwild, hindices, Record.layout]

/-- Registration over the plain fields of a sound tree comes to a result, and to the same one. -/
theorem Sound.insert?_layout {tree : Tree α} (hsound : tree.Sound) (pattern : Text) (value : α) :
    tree.layout.insert? pattern value
      = some ((tree.insert pattern value).1.layout, (tree.insert pattern value).2) := by
  unfold Layout.insert? Tree.insert
  cases hcheck : Pattern.check pattern with
  | error fault => rfl
  | ok _ =>
      obtain ⟨hslash, hfollows⟩ := follows_of_check hcheck
      cases tree with
      | empty =>
          obtain ⟨planted, hgrow, hplanted⟩ := grow?_empty value hslash
          have hnothing : ((empty : Tree α).layout.record.segment.isEmpty
              && (empty : Tree α).layout.record.children.isEmpty) = true := rfl
          simp only [hnothing, ↓reduceIte, hgrow, Option.bind_eq_bind, Option.bind_some, hplanted]
      | root label node =>
          obtain ⟨hlabel, hhead, hnode⟩ := hsound
          have hsegment : (root label node).layout.record.segment = label :=
            Node.segment_record _ _ _ _
          have hsomething : (root label node).layout.record.segment.isEmpty = false := by
            rw [hsegment, List.isEmpty_eq_false_iff]
            exact hlabel.ne_nil
          have hnode : node.Sound ([] ++ label) := hnode
          have halong := Record.Suffices.along_label (Record.suffices_rounds value pattern.length)
            .root hlabel hnode (hhead.trans hslash.symm) hfollows (Nat.lt_succ_self _)
          simp only [hsomething, Bool.false_and, Bool.false_eq_true, ↓reduceIte]
          exact halong

/-- Registrations over the plain fields, one after the other, come to a result, and to the tree that
they make along the characters. -/
theorem Sound.insertAll?_layout {tree : Tree α} (hsound : tree.Sound)
    (history : List (Text × α)) :
    tree.layout.insertAll? history = some (tree.insertAll history).layout := by
  induction history generalizing tree with
  | nil => rfl
  | cons route later ih =>
      obtain ⟨pattern, value⟩ := route
      have hnext := (insert_sound pattern value hsound).1
      rw [Layout.insertAll?, hsound.insert?_layout, Option.bind_eq_bind, Option.bind_some,
        Tree.insertAll]
      exact ih hnext

/-- Registrations over the plain fields of an empty tree leave every place orderly. -/
theorem insertAll?_empty_orderly (history : List (Text × α)) :
    ∃ root, (empty : Tree α).layout.insertAll? history = some root
      ∧ root = (ofHistory history).layout
      ∧ (root = (empty : Tree α).layout
        ∨ ∀ above place, Layout.Within [] root above place → Layout.Orderly above place) := by
  refine ⟨_, holds_empty.sound.insertAll?_layout history, rfl, ?_⟩
  rcases (holds_ofHistory history).sound.orderly_of_within with hempty | horderly
  · exact Or.inl (congrArg Tree.layout hempty)
  · exact Or.inr horderly

/-- How the registration of `pattern` cuts the texts of a tree. -/
structure CutsBetweenCharacters (tree : Tree α) (pattern : Text) (value : α) : Prop where
  /-- Over the plain fields, with all text cut out at byte offsets, it comes to a result. -/
  registered : tree.layout.insert? pattern value
    = some ((tree.insert pattern value).1.layout, (tree.insert pattern value).2)
  /-- Where a path leaves the segment of a place with a literal character, the new child and the
  half that is cut off have different index characters. -/
  forked : ∀ (place : Layout α) (above path : Text) (rounds : Nat) (c : Char) (rest : Text),
    Text.sharedBytes path place.record.segment < Text.byteLength place.record.segment →
    Text.fromByte? (Text.sharedBytes path place.record.segment) path = some (c :: rest) →
    isMark c = false →
    ∃ tail grown sibling d,
      Text.fromByte? (Text.sharedBytes path place.record.segment) place.record.segment = some tail
        ∧ Record.addWithin? (above ++ path) value (rounds + 1) (Text.byteLength above) path place
          = some (grown, .ok ())
        ∧ Record.Forked grown (place.record.cutOff tail).layout sibling d c

/-- Edges are cut between characters. Two texts are cut by the bytes that they share where their
characters part, and no cut that a registration makes in a tree falls into a character, whatever was
registered before and whatever was refused. -/
theorem ofHistory_cutsBetweenCharacters (a b : Text) (history : List (Text × α)) (pattern : Text)
    (value : α) :
    (∃ front rest tail, Text.Parting a b (Text.sharedBytes a b) front rest tail)
      ∧ (ofHistory history).CutsBetweenCharacters pattern value := by
  have hsound := (holds_ofHistory history).sound
  refine ⟨Text.exists_sharedBytes_parting a b, hsound.insert?_layout pattern value, ?_⟩
  intro place above path rounds c rest hcut hrest hc
  exact Record.exists_forked place above path value rounds hcut hrest hc

/-- One route, whose second character begins with the same byte as the one that another route has in
its place. -/
def alpha : List (Text × Nat) :=
  [("/α".toList, 1)]

theorem alpha_cutsBetweenCharacters :
    Text.commonBytes (Text.utf8 "/β".toList) (Text.utf8 "/α".toList) = 2
      ∧ Text.sharedBytes "/β".toList (ofHistory alpha).layout.record.segment
        < Text.byteLength (ofHistory alpha).layout.record.segment
      ∧ Text.fromByte? (Text.sharedBytes "/β".toList (ofHistory alpha).layout.record.segment)
          "/β".toList = some ['β']
      ∧ isMark 'β' = false
      ∧ (∃ front rest tail, Text.Parting "/β".toList "/α".toList 1 front rest tail)
      ∧ ∃ tail grown sibling d,
        Text.fromByte? (Text.sharedBytes "/β".toList (ofHistory alpha).layout.record.segment)
            (ofHistory alpha).layout.record.segment = some tail
          ∧ Record.addWithin? "/β".toList 2 1 0 "/β".toList (ofHistory alpha).layout
            = some (grown, .ok ())
          ∧ Record.Forked grown ((ofHistory alpha).layout.record.cutOff tail).layout sibling d
            'β' := by
  have hbytes : Text.sharedBytes "/β".toList "/α".toList = 1 := by decide +kernel
  have hcut : Text.sharedBytes "/β".toList (ofHistory alpha).layout.record.segment
      < Text.byteLength (ofHistory alpha).layout.record.segment := by decide +kernel
  have hrest : Text.fromByte? (Text.sharedBytes "/β".toList
      (ofHistory alpha).layout.record.segment) "/β".toList = some ['β'] := by decide +kernel
  have hmark : isMark 'β' = false := by decide
  obtain ⟨hparting, -, hforked⟩ :=
    ofHistory_cutsBetweenCharacters "/β".toList "/α".toList alpha "/β".toList 2
  rw [hbytes] at hparting
  exact ⟨by decide +kernel, hcut, hrest, hmark, hparting,
    hforked _ [] "/β".toList 0 'β' [] hcut hrest hmark⟩

end Tree

end RadixRouter
