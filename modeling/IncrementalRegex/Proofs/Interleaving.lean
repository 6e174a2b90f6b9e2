import IncrementalRegex.Proofs.Lockstep

namespace IncrementalRegex

namespace Parser

/-- Once the upper bound of a repetition has been read. -/
def bounded (p : Parser) (b : Bounds) : Parser :=
  match p.group.branch with
  | [] => p.push (.one '*')
  | e :: es =>
    { p with
      group := { p.group with branch := .repeated e b :: es }
      stacked := p.stacked + 1
      expecting := .element }

theorem bounded_of_empty {p : Parser} (h : p.group.branch = []) (b : Bounds) :
    p.bounded b = p.push (.one '*') := by
  rw [bounded, h]

theorem upperBound_eq (p : Parser) (lower : Nat) {t : Token} (hk : t.kind = .repUpper) :
    p.upperBound lower t =
      match Bounds.between? lower t.count with
      | none => .error .reversedBounds
      | some b => .ok (p.bounded b) := by
  rw [upperBound, if_pos hk]
  cases Bounds.between? lower t.count with
  | none => rfl
  | some b =>
    simp only [bounded]
    cases p.group.branch <;> rfl

end Parser

namespace Descent

open TokenReader

variable {g : Grammar} {p : Parser} {s s₀ : TokenReader} {depth : Nat}

theorem bounds_follows {lower : Nat} (hs : s.Sound) (hp : p.expecting = .upperBound lower) :
    Follows g p s (bounds lower s) fun b _ q => q = p.bounded b := by
  rw [bounds]
  apply Follows.take hs
  · intro hend
    exact .fault_end hend (by rw [Parser.finish, hp])
  · intro t s' htake hclear
    have hstep : p.step g t = p.upperBound lower t := by rw [Parser.step, hp]
    dsimp only
    by_cases hk : t.kind = .repUpper
    · rw [if_pos hk]
      rw [Parser.upperBound_eq p lower hk] at hstep
      cases hb : Bounds.between? lower t.count with
      | none =>
        rw [hb] at hstep
        exact .fault_token htake hstep
      | some b =>
        rw [hb] at hstep
        exact .step htake hstep (.result hclear.sound rfl)
    · rw [if_neg hk]
      rw [Parser.upperBound, if_neg hk] at hstep
      exact .fault_token htake hstep

theorem repetitions_follows {s : TokenReader} {bs es : List Pattern} {outer : List Group}
    {e : Pattern} {stacked : Nat} (hs : s.Sound) :
    Follows g ⟨⟨bs, e :: es⟩, outer, stacked, .element⟩ s
      (plain.repetitions outer.length e stacked s) fun e' rest q =>
        (∃ k, q = ⟨⟨bs, e' :: es⟩, outer, k, .element⟩) ∧ Next rest (· ≠ .repLower) := by
  rw [Manner.repetitions]
  apply Follows.take hs
  · intro hend
    exact .result hs ⟨⟨stacked, rfl⟩, next_of_end hend⟩
  · intro t s' htake hclear
    dsimp only
    by_cases hk : t.kind = .repLower
    · rw [if_pos hk]
      have hstep : (⟨⟨bs, e :: es⟩, outer, stacked, .element⟩ : Parser).step g t =
          Parser.repetition g.dialect ⟨⟨bs, e :: es⟩, outer, stacked, .element⟩ t := by
        simp only [Parser.step, Parser.element, hk]
      rw [Parser.repetition] at hstep
      by_cases hdeep : nestingLimit < outer.length + (stacked + 1)
      · rw [if_pos hdeep] at hstep ⊢
        exact .fault_token htake hstep
      · rw [if_neg hdeep] at hstep ⊢
        apply Follows.step htake hstep
        apply Follows.bind (bounds_follows hclear.sound rfl)
        intro b q hsound hq
        have hb := b.le
        have hs' := s'.property
        subst hq
        apply Follows.bind (repetitions_follows hsound)
        intro r q hsound' hq
        exact .result hsound' hq
    · rw [if_neg hk]
      exact .upTo htake hclear rfl ⟨⟨stacked, rfl⟩, next_giveBack hclear hk⟩
termination_by s.size

theorem rangeEnd_eq_withRange (p : Parser) (set : CharSet) (start : Char) (t : Token) :
    p.rangeEnd set start t =
      withRange set start t >>= fun set => .ok (p.expect (.bracketItem set none)) := by
  unfold Parser.rangeEnd withRange
  cases t.kind
  case bracketLiteral =>
    dsimp only [bind, Except.bind, pure, Except.pure]
    cases set.addRange start t.char <;> rfl
  case collate =>
    cases Parser.singleElement t.string with
    | error f => rfl
    | ok c =>
      dsimp only [bind, Except.bind]
      cases set.addRange start c <;> rfl
  all_goals rfl

theorem rangeEnd_follows {set : CharSet} {start : Char} (hs : s.Sound)
    (hp : p.expecting = .rangeEnd set start) :
    Follows g p s (rangeEnd set start s) fun set' _ q => q = p.expect (.bracketItem set' none) := by
  rw [rangeEnd]
  apply Follows.take hs
  · intro hend
    exact .fault_end hend (by rw [Parser.finish, hp])
  · intro t s' htake hclear
    have hstep : p.step g t = p.rangeEnd set start t := by rw [Parser.step, hp]
    rw [rangeEnd_eq_withRange] at hstep
    exact .of_part htake hstep fun set' h => .step htake h (.result hclear.sound rfl)

theorem bracket_follows {s : TokenReader} {p : Parser} {set : CharSet} {rangeStart : Option Char}
    (hs : s.Sound) (hp : p.expecting = .bracketItem set rangeStart) :
    Follows g p s (bracket set rangeStart s) fun set' _ q => q = p.push (.satisfying (.inSet set'))
    := by
  rw [bracket]
  apply Follows.take hs
  · intro hend
    exact .fault_end hend (by rw [Parser.finish, hp])
  · intro t s' htake hclear
    have hstep : p.step g t = p.bracketItem set rangeStart t := by rw [Parser.step, hp]
    rw [Parser.bracketItem.eq_def] at hstep
    have hs' := s'.property
    have hrest {set₁ : CharSet} {rangeStart₁ : Option Char}
        (h : p.step g t = .ok (p.expect (.bracketItem set₁ rangeStart₁))) :
        Follows g p s
          (do return (← bracket set₁ rangeStart₁ s'.val).after hs' : Except _ (Reading s CharSet))
          fun set' _ q => q = p.push (.satisfying (.inSet set')) := by
      apply Follows.step htake h
      apply Follows.bind (bracket_follows hclear.sound rfl)
      intro r q hsound hq
      exact .result hsound hq
    dsimp only
    cases hk : t.kind <;> rw [hk] at hstep
    case rBracket => exact .step htake hstep (.result hclear.sound rfl)
    case negation => exact hrest hstep
    case bracketLiteral => exact hrest hstep
    case collate =>
      exact .of_part htake hstep fun _ h => hrest h
    case equiv =>
      exact .of_part htake hstep fun _ h => hrest h
    case className =>
      dsimp only at hstep ⊢
      cases hc : CharClass.ofName? t.string with
      | error f =>
        rw [hc] at hstep
        exact .fault_token htake hstep
      | ok k =>
        rw [hc] at hstep
        exact hrest hstep
    case charClass =>
      dsimp only at hstep ⊢
      cases hc : CharClass.ofEscape? t.char with
      | none =>
        rw [hc] at hstep
        exact .fault_token htake hstep
      | some k =>
        rw [hc] at hstep
        exact hrest hstep
    case rangeDash =>
      dsimp only at hstep ⊢
      cases rangeStart with
      | none => exact .fault_token htake hstep
      | some start =>
        apply Follows.step htake hstep
        apply Follows.bind (rangeEnd_follows hclear.sound rfl)
        intro r q hsound hq
        have hr := r.le
        subst hq
        apply Follows.bind (bracket_follows hsound rfl)
        intro r' q hsound' hq
        exact .result hsound' hq
    all_goals exact .fault_token htake hstep
termination_by s.size

theorem endsBranch_iff {kind : TokenKind} :
    endsBranch kind = true ↔ kind = .alternation ∨ kind = .rParen := by
  simp [endsBranch]

/-- Behind a dollar sign, the next token is given back in any case, and taken again as an element
only if it does not end the branch. -/
theorem atBranchEnd_follows (hs : s.Sound) :
    Follows g (p.expect .branchEnd) s (plain.atBranchEnd s) fun ends rest q =>
      if ends then run g q rest = fault rest .anchor else q = p.push (.one '$') := by
  rw [Manner.atBranchEnd]
  apply Follows.take hs
  · intro hend
    exact .result hs (run_of_end hend)
  · intro t s' htake hclear
    have hstep : (p.expect .branchEnd).step g t =
        if t.kind = .alternation ∨ t.kind = .rParen then .error .anchor
        else (p.push (.one '$')).element g t := rfl
    by_cases hk : t.kind = .alternation ∨ t.kind = .rParen
    · rw [if_pos hk] at hstep
      apply Follows.upTo htake hclear rfl
      rw [if_pos (endsBranch_iff.mpr hk)]
      exact run_of_fault (take_giveBack hclear t) hstep
    · rw [if_neg hk] at hstep
      apply Follows.upTo htake hclear (show _ = (p.push (.one '$')).step g t from hstep)
      rw [if_neg (mt endsBranch_iff.mp hk)]

/-- A caret inside a branch and a dollar sign before its end are ordinary characters. -/
theorem assertion_follows {s' : {s' : TokenReader // s'.size < s.size}} {t : Token}
    (htake : take s = .ok (some (t, s'))) (hclear : s'.val.Clear) {atStart : Bool}
    (hstart : atStart = p.group.branch.isEmpty)
    (hp : p.step g t = p.assertion g.dialect t.char) :
    Follows g p s (plain.assertion g.dialect t.char atStart s'.val) fun e _ q => q = p.push e := by
  rw [Parser.assertion] at hp
  rw [Manner.assertion]
  have hiff : (¬ (atStart : Prop)) ↔ p.group.branch ≠ [] := by simp [hstart]
  simp only [hiff]
  by_cases hcaret : g.dialect.isBasic ∧ t.char = '^' ∧ p.group.branch ≠ []
  · rw [if_pos hcaret] at hp ⊢
    exact .step htake hp (.result hclear.sound rfl)
  rw [if_neg hcaret] at hp ⊢
  by_cases hdollar : g.dialect.isBasic ∧ t.char = '$'
  · rw [if_pos hdollar] at hp ⊢
    apply Follows.step htake hp
    apply Follows.bind (atBranchEnd_follows hclear.sound)
    intro r q hsound hq
    cases hr : r.value <;> rw [hr] at hq
    · exact .result hsound hq
    · exact hq
  · rw [if_neg hdollar] at hp ⊢
    exact .fault_token htake hp

/-- The first token of a group, if it does not say what kind of group it is, is given back. -/
theorem groupStart_follows (hs : s.Sound) (hp : p.expecting = .groupStart) :
    Follows g p s (plain.groupStart s) fun _ _ q => q = p.expect .element := by
  rw [Manner.groupStart]
  apply Follows.take hs
  · intro hend
    exact .fault_end hend (by rw [Parser.finish, hp])
  · intro t s' htake hclear
    have hp' : (p.expect .element).expect .groupStart = p := by
      rw [Parser.expect, Parser.expect, ← hp]
    have hplain (h : t.kind.qualifiesGroup = false) :
        p.step g t = (p.expect .element).step g t := by
      rw [← Parser.step_groupStart (p := p.expect .element) rfl h, hp']
    have hlookahead (h : t.kind = .positiveLookahead ∨ t.kind = .negativeLookahead) :
        p.step g t = .error .lookahead := by
      rcases h with h | h <;> rw [Parser.step, hp, h]
    dsimp only
    cases hk : t.kind
    case noSubexp =>
      have hstep : p.step g t = .ok (p.expect .element) := by rw [Parser.step, hp, hk]
      exact .step htake hstep (.result hclear.sound rfl)
    case positiveLookahead => exact .fault_token htake (hlookahead (.inl hk))
    case negativeLookahead => exact .fault_token htake (hlookahead (.inr hk))
    all_goals exact .upTo htake hclear (hplain (by rw [hk]; rfl)) rfl

mutual

theorem alternation_follows {s : TokenReader} {p : Parser} {depth : Nat} (hs : s.Sound)
    (hp : p.expecting = .element) (hgroup : p.group = {}) (hdepth : p.outer.length = depth) :
    Follows g p s (plain.alternation g depth s) fun e rest q =>
      q.expecting = .element ∧ q.group.pattern = e ∧ q.outer = p.outer ∧
        Next rest (· = .rParen) := by
  rw [Manner.alternation]
  refine Follows.bind (branch_follows hs hp hgroup hdepth fun h => absurd rfl h)
    fun first q hsound hq => ?_
  obtain ⟨hexpecting, hclosed, houter, hnext⟩ := hq
  have hfirst := first.le
  apply Follows.bind (alternatives_follows hsound hexpecting hclosed (houter ▸ hdepth) hnext)
  intro all q' hsound' hq'
  obtain ⟨hexpecting', hclosed', houter', hnext'⟩ := hq'
  apply Follows.result hsound'
  refine ⟨hexpecting', ?_, houter'.trans houter, hnext'⟩
  rw [Group.pattern, hclosed']
  rfl
termination_by 4 * s.size + 2

theorem alternatives_follows {s : TokenReader} {p : Parser} {depth : Nat} {bs : List Pattern}
    (hs : s.Sound) (hp : p.expecting = .element) (hgroup : p.group.closeBranch = ⟨bs, []⟩)
    (hdepth : p.outer.length = depth) (hnext : Next s (endsBranch ·)) :
    Follows g p s (plain.alternatives g depth bs s) fun all rest q =>
      q.expecting = .element ∧ q.group.closeBranch = ⟨all, []⟩ ∧ q.outer = p.outer ∧
        Next rest (· = .rParen) := by
  rw [Manner.alternatives]
  apply Follows.take hs
  · intro hend
    exact .result hs ⟨hp, hgroup, rfl, next_of_end hend⟩
  · intro t s' htake hclear
    have hs' := s'.property
    dsimp only
    by_cases hk : t.kind = .alternation
    · rw [if_pos hk]
      have hstep : p.step g t = .ok { p with group := ⟨bs, []⟩, expecting := .element } := by
        simp only [Parser.step, hp, Parser.element, hk, hgroup]
      apply Follows.step htake hstep
      refine Follows.bind (branch_follows hclear.sound rfl rfl hdepth fun h => absurd rfl h)
        fun b q hsound hq => ?_
      obtain ⟨hexpecting, hclosed, houter, hnext'⟩ := hq
      have hb := b.le
      apply Follows.bind (alternatives_follows hsound hexpecting hclosed (houter ▸ hdepth) hnext')
      intro all q' hsound' hq'
      obtain ⟨hexpecting', hclosed', houter', hnext''⟩ := hq'
      exact .result hsound' ⟨hexpecting', hclosed', houter'.trans houter, hnext''⟩
    · rw [if_neg hk]
      have hr : t.kind = .rParen := (endsBranch_iff.mp (hnext t s' htake)).resolve_left hk
      exact .upTo htake hclear rfl ⟨hp, hgroup, rfl, next_giveBack hclear hr⟩
termination_by 4 * s.size

theorem branch_follows {s : TokenReader} {p : Parser} {depth : Nat} {bs es : List Pattern}
    (hs : s.Sound) (hp : p.expecting = .element) (hgroup : p.group = ⟨bs, es⟩)
    (hdepth : p.outer.length = depth) (hnext : es ≠ [] → Next s (· ≠ .repLower)) :
    Follows g p s (plain.branch g depth es s) fun b rest q =>
      q.expecting = .element ∧ q.group.closeBranch = ⟨b :: bs, []⟩ ∧ q.outer = p.outer ∧
        Next rest (endsBranch ·) := by
  have hclosed : p.group.closeBranch = ⟨.join .concat es.reverse :: bs, []⟩ := by
    rw [hgroup, Group.closeBranch]
  rw [Manner.branch]
  apply Follows.take hs
  · intro hend
    exact .result hs ⟨hp, hclosed, rfl, next_of_end hend⟩
  · intro t s' htake hclear
    have hs' := s'.property
    dsimp only
    by_cases hk : endsBranch t.kind
    · rw [if_pos hk]
      exact .upTo htake hclear rfl ⟨hp, hclosed, rfl, next_giveBack hclear hk⟩
    · rw [if_neg hk]
      have hstart : es.isEmpty = p.group.branch.isEmpty := by rw [hgroup]
      have hrep : t.kind = .repLower → p.group.branch = [] := by
        intro h
        by_contra hne
        rw [hgroup] at hne
        exact hnext hne t s' htake h
      apply Follows.bind (element_follows htake hclear hp hk hstart hrep hdepth)
      intro e q hsound hq
      have he := e.le
      obtain rfl : q = ⟨⟨bs, e.value :: es⟩, p.outer, 0, .element⟩ := by
        rw [hq, Parser.push, hgroup]
        rfl
      subst hdepth
      apply Follows.bind (repetitions_follows hsound)
      intro r q' hsound' hq'
      have hr := r.le
      obtain ⟨⟨k, rfl⟩, hnext'⟩ := hq'
      apply Follows.bind (branch_follows hsound' rfl rfl rfl fun _ => hnext')
      intro b q'' hsound'' hq''
      exact .result hsound'' hq''
termination_by 4 * s.size + 1

theorem element_follows {s : TokenReader} {p : Parser} {t : Token}
    {s' : {s' : TokenReader // s'.size < s.size}} {depth : Nat} {atStart : Bool}
    (htake : take s = .ok (some (t, s'))) (hclear : s'.val.Clear) (hp : p.expecting = .element)
    (hends : ¬ endsBranch t.kind) (hstart : atStart = p.group.branch.isEmpty)
    (hrep : t.kind = .repLower → p.group.branch = []) (hdepth : p.outer.length = depth) :
    Follows g p s (plain.element g depth atStart t s'.val) fun e _ q => q = p.push e := by
  have hs' := s'.property
  have hstep : p.step g t = p.element g t := by rw [Parser.step, hp]
  rw [Parser.element.eq_def] at hstep
  rw [Manner.element.eq_def]
  cases hk : t.kind <;> rw [hk] at hstep
  case stringLiteral => exact .step htake hstep (.result hclear.sound rfl)
  case literal => exact .step htake hstep (.result hclear.sound rfl)
  case charClass => exact .step htake hstep (.result hclear.sound rfl)
  case lParen => exact group_follows htake hclear hstep hdepth
  case lBracket =>
    apply Follows.step htake hstep
    apply Follows.bind (bracket_follows hclear.sound rfl)
    intro r q hsound hq
    exact .result hsound hq
  case repLower =>
    have hempty := hrep hk
    rw [hempty] at hstart
    subst hstart
    rw [Parser.repetition.eq_def, hempty] at hstep
    by_cases hstar : g.dialect.isBasic ∧ t.char = '*'
    · rw [if_pos hstar] at hstep
      rw [if_pos ⟨hstar.1, rfl, hstar.2⟩]
      apply Follows.step htake hstep
      apply Follows.bind (bounds_follows hclear.sound rfl)
      intro b q hsound hq
      have hbounded : q = (p.expect (.upperBound t.count)).push (.one '*') :=
        hq.trans (Parser.bounded_of_empty hempty b.value)
      exact .result hsound hbounded
    · rw [if_neg hstar] at hstep
      rw [if_neg fun h => hstar ⟨h.1, h.2.2⟩]
      exact .fault_token htake hstep
  case assertion => exact assertion_follows htake hclear hstart hstep
  case alternation => exact absurd (by rw [hk]; rfl) hends
  case rParen => exact absurd (by rw [hk]; rfl) hends
  all_goals exact .fault_token htake hstep
termination_by 4 * s'.val.size + 4

theorem group_follows {s : TokenReader} {p : Parser} {t : Token}
    {s' : {s' : TokenReader // s'.size < s.size}} {depth : Nat}
    (htake : take s = .ok (some (t, s'))) (hclear : s'.val.Clear)
    (hstep : p.step g t = p.openGroup) (hdepth : p.outer.length = depth) :
    Follows g p s (plain.group g depth s'.val) fun e _ q => q = p.push e := by
  have hs' := s'.property
  rw [Manner.group]
  rw [Parser.openGroup, hdepth] at hstep
  by_cases hdeep : nestingLimit < depth + 1
  · rw [if_pos hdeep] at hstep ⊢
    exact .fault_token htake hstep
  rw [if_neg hdeep] at hstep ⊢
  apply Follows.step htake hstep
  apply Follows.bind (groupStart_follows hclear.sound rfl)
  intro start q hsound hq
  have hstart := start.le
  subst hq
  apply Follows.bind (alternation_follows hsound rfl rfl (by rw [← hdepth]; rfl))
  intro r q hsound' hq
  obtain ⟨hexpecting, hpattern, houter, hnext⟩ := hq
  apply Follows.take hsound'
  · intro hend
    refine .fault_end hend ?_
    rw [Parser.finish, hexpecting, houter]
    rfl
  · intro t' s'' htake' hclear'
    have hk := hnext t' s'' htake'
    dsimp only
    rw [if_pos hk]
    have hclose : q.step g t' = .ok (p.push r.value) := by
      simp only [Parser.step, hexpecting, Parser.element, hk, Parser.closeGroup, houter, hpattern]
      rfl
    exact .step htake' hclose (.result hclear'.sound rfl)
termination_by 4 * s'.val.size + 3

end

/-- What the descent comes to is what the parser makes of the tokens in turn. -/
theorem pattern_eq_run (hs : s.Sound) : pattern g s = run g {} s := by
  have hfollows : Follows g {} s (alternation g 0 s) _ := alternation_follows hs rfl rfl rfl
  rw [pattern_eq]
  cases h : alternation g 0 s with
  | error e =>
    rw [h] at hfollows
    exact hfollows.symm
  | ok r =>
    rw [h] at hfollows
    obtain ⟨hsound, q, ⟨hexpecting, hpattern, houter, hnext⟩, hrun⟩ := hfollows
    rw [hrun]
    change (take r.rest >>= _) = _
    cases htake : take r.rest with
    | error e => rw [run_of_error htake]; rfl
    | ok x =>
      cases x with
      | none =>
        rw [run_of_end htake, Parser.finish, hexpecting, houter]
        exact congrArg Except.ok hpattern.symm
      | some x =>
        obtain ⟨t, s'⟩ := x
        have hk := hnext t s' htake
        rw [run_of_fault htake (f := .unopenedGroup)]
        · rfl
        · simp only [Parser.step, hexpecting, Parser.element, hk, Parser.closeGroup, houter]

/-- The parser at the tokens of a stream, and at its end or fault; before the stream `before`
characters have been read. -/
def parseFrom (g : Grammar) (p : Parser) (before : Nat) (stream : TokenStream) :
    Except ParseError Pattern := do
  let last ← stream.takeFrom g p
  match stream.fault with
  | some e => .error (.token e)
  | none =>
    let offset := (stream.lexemes.getLast?.map Lexeme.offset).getD before
    last.finish.mapError (.grammar · offset)

theorem parseFrom_cons (before : Nat) (l : Lexeme) (lexemes : List Lexeme)
    (e : Option PatternError) :
    parseFrom g p before ⟨l :: lexemes, e⟩ =
      (p.step g l.token).mapError (.grammar · l.offset) >>=
        (parseFrom g · l.offset ⟨lexemes, e⟩) := by
  unfold parseFrom
  rw [TokenStream.takeFrom, List.foldlM_cons]
  cases p.step g l.token with
  | error f => rfl
  | ok q =>
    have hlast : ((l :: lexemes).getLast?.map Lexeme.offset).getD before =
        (lexemes.getLast?.map Lexeme.offset).getD l.offset := by
      rw [List.getLast?_cons]
      cases lexemes.getLast? <;> rfl
    dsimp only
    rw [hlast]
    rfl

theorem run_eq_parseFrom (hclear : s.Clear) : run g p s = parseFrom g p s.offset s.stream := by
  induction s using TokenReader.stream.induct generalizing p with
  | case1 s e read =>
    have hget := get_eq hclear.returned hclear.error
    rw [read] at hget
    rw [run_of_error (take_of_error hget), stream_of_error read]
    rfl
  | case2 s read =>
    have hget := get_eq hclear.returned hclear.error
    rw [read] at hget
    rw [run_of_end (take_eq_none_iff.mpr ⟨s, hget⟩), stream_of_end read]
    rfl
  | case3 s t s' read ih =>
    have hget := get_eq hclear.returned hclear.error
    rw [read] at hget
    have htake := take_of_get hget
    rw [run_of_token htake, stream_of_token read, parseFrom_cons]
    cases p.step g t with
    | error f => rfl
    | ok q => exact ih (hclear.read read)

theorem clear_ofPattern (flags : Flags) (text : String) : (ofPattern flags text).Clear := ⟨rfl, rfl⟩

/-- The pattern, or the fault and its place, is the same whether the tokens are taken while they
are read or all together. -/
theorem pattern_eq_parse (g : Grammar) (flags : Flags) (text : String) :
    pattern g (.ofPattern flags text) = (TokenStream.ofPattern flags text).parse g := by
  have hclear := clear_ofPattern flags text
  rw [pattern_eq_run hclear.sound, run_eq_parseFrom hclear]
  rfl

end Descent

theorem compile_eq_descent (flags : Flags) (text : String) (tag : Nat) :
    compile flags text tag = Descent.compile flags text tag := by
  rw [Descent.compile, Descent.pattern_eq_parse]
  rfl
end IncrementalRegex
