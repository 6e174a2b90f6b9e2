import IncrementalRegex.Proofs.Interleaving
import IncrementalRegex.Proofs.WellFormed

namespace IncrementalRegex

/-- Faults of token sequences that no text is read as. -/
def Fault.isInternal : Fault → Bool
  | unopenedGroup | missingUpperBound | reversedBounds | dashWithoutStart | unknownClassEscape
  | strayInBracket => true
  | _ => false

/-- A class escape is that of a class. -/
def Token.NamesClass (t : Token) : Prop :=
  t.kind = .charClass → (CharClass.ofEscape? t.char).isSome

theorem bind_eq_error {ε β γ : Type} {x : Except ε β} {k : β → Except ε γ} {e : ε} :
    x >>= k = .error e ↔ x = .error e ∨ ∃ a, x = .ok a ∧ k a = .error e := by
  cases x <;> simp [bind, Except.bind]

/-- A kind that is not that of digits nor that of all others has an entry. -/
theorem KindTable.mem_entries_of_kind {t : KindTable} {c : Char} {kind : TokenKind}
    (h : t.kind? c = some kind) (hdigit : t.digit ≠ some kind) (hother : t.otherwise ≠ some kind) :
    (c, kind) ∈ t.entries := by
  simp only [kind?, Option.orElse_eq_orElse, Option.orElse_eq_or, Option.or_eq_some_iff] at h
  rcases h with hentry | ⟨-, hd | ⟨-, ho⟩⟩
  · exact mem_of_lookup hentry
  · split_ifs at hd
    exact absurd hd hdigit
  · exact absurd ho hother

theorem Lexicon.namesClass_of_read {d : Dialect} {c c' : Cursor} {t : Token}
    (h : (bracket d).read c = .ok (some (t, c'))) : t.NamesClass := by
  intro hk
  have hresolved (kind : TokenKind) (hkind : (bracket d).resolved kind = .charClass) :
      kind = .charClass := by
    cases kind <;> first | rfl | cases hkind
  cases read_eq_some_iff.mp h with
  | @pair x y _ _ _ kind _ _ escape token =>
    obtain ⟨table, hx, -, hentry⟩ := escape_eq_some_iff.mp escape
    obtain rfl := hresolved kind ((kind_of_tokenOf token).symm.trans hk)
    cases token
    have hall : ∀ p ∈ (bracket d).pairs, p.2.digit ≠ some .charClass ∧
        p.2.otherwise ≠ some .charClass ∧
        ∀ q ∈ p.2.entries, q.2 = .charClass → (CharClass.ofEscape? q.1).isSome := by
      cases d <;> decide
    obtain ⟨hdigit, hother, hentries⟩ := hall _ (KindTable.mem_of_lookup hx)
    exact hentries _ (KindTable.mem_entries_of_kind hentry hdigit hother) rfl
  | @alone x _ _ kind _ _ _ entry token =>
    obtain rfl := hresolved kind ((kind_of_tokenOf token).symm.trans hk)
    have hnone : TokenKind.charClass ∉ (bracket d).alone.kinds := by
      cases d <;> decide
    exact absurd (KindTable.kind_mem_kinds entry) hnone

theorem BracketPlace.namesClass_meaning {p : BracketPlace} {t : Token} (h : t.NamesClass) :
    (p.meaning t).NamesClass := by
  unfold meaning
  split <;> first | exact h | (intro hk; cases hk)

namespace BracketReader

variable {d : Dialect} {r r' : BracketReader} {c c' : Cursor} {t : Token}

theorem namesClass_of_raw {ahead : Queue Token} (h : ∀ u ∈ r.ahead.items, u.NamesClass)
    (hr : r.raw d c = .ok (some (t, ahead, c'))) :
    t.NamesClass ∧ ∀ u ∈ ahead.items, u.NamesClass := by
  rcases raw_eq_some_iff.mp hr with ⟨hitems, -⟩ | ⟨-, rfl, hread⟩
  · rw [hitems] at h
    exact List.forall_mem_cons.mp h
  · exact ⟨Lexicon.namesClass_of_read hread, List.forall_mem_nil _⟩

theorem namesClass_of_read (h : ∀ u ∈ r.ahead.items, u.NamesClass)
    (hr : r.read d c = .ok (some (t, r', c'))) :
    t.NamesClass ∧ ∀ u ∈ r'.ahead.items, u.NamesClass := by
  have hpush {ahead : Queue Token} {v : Token} (hahead : ∀ u ∈ ahead.items, u.NamesClass)
      (hv : v.NamesClass) : ∀ u ∈ (ahead.push v).items, u.NamesClass := by
    intro u hu
    rcases List.mem_append.mp hu with hu | hu
    · exact hahead u hu
    · rwa [List.mem_singleton.mp hu]
  cases read_eq_some_iff.mp hr with
  | plain raw | lastDash raw =>
    obtain ⟨ht, hahead⟩ := namesClass_of_raw h raw
    exact ⟨BracketPlace.namesClass_meaning ht, hahead⟩
  | dash raw _ next =>
    obtain ⟨ht, hahead⟩ := namesClass_of_raw h raw
    exact ⟨BracketPlace.namesClass_meaning ht, hpush hahead (Lexicon.namesClass_of_read next)⟩
  | literalDash raw _ next =>
    obtain ⟨-, hahead⟩ := namesClass_of_raw h raw
    exact ⟨nofun, hpush hahead (Lexicon.namesClass_of_read next)⟩

end BracketReader

theorem TokenReader.namesClass_of_read {s s' : TokenReader} {t : Token}
    (h : ∀ u ∈ s.bracket.ahead.items, u.NamesClass) (hread : s.read = .ok (some (t, s'))) :
    (s.context = .bracket → t.NamesClass) ∧ ∀ u ∈ s'.bracket.ahead.items, u.NamesClass := by
  obtain ⟨u, hcontext, -, rfl⟩ := read_eq_some_iff.mp hread
  cases readInContext_eq_some_iff.mp hcontext with
  | expression context | group context | element context =>
    refine ⟨fun hc => ?_, h⟩
    rw [context] at hc
    cases hc
  | bracket _ hr =>
    obtain ⟨ht, hahead⟩ := BracketReader.namesClass_of_read h hr
    exact ⟨fun _ => ht, hahead⟩

open Phase

/-- What a parser expects where the next token stands in a phase. -/
inductive Suits : Phase → Expecting → Prop where
  | element : Suits .outside .element
  | branchEnd : Suits .outside .branchEnd
  | groupStart : Suits .opened .groupStart
  | upperBound (lower : Nat) : Suits (.repeated lower) (.upperBound lower)
  | bracketItem {place : BracketPlace} {set : CharSet} {rangeStart : Option Char}
      (dash : place ≠ .afterDash) (start : place = .afterRangeStart → rangeStart ≠ none) :
      Suits (.inside place) (.bracketItem set rangeStart)
  | rangeEnd {set : CharSet} {start : Char} : Suits (.inside .afterDash) (.rangeEnd set start)

namespace Phase

variable {t : Token} {ph ph' : Phase}

theorem Step.after_plain (h : Step ph t ph') (hk : t.kind.isPlain ∨ t.kind.qualifiesGroup)
    (hph : ph.context ≠ .bracket) : ph' = .outside := by
  cases h with
  | plain | upper | qualifier => rfl
  | openGroup _ kind | openBracket _ kind | lower _ kind =>
    rw [kind] at hk
    rcases hk with hk | hk <;> cases hk
  | item | closeBracket => contradiction

/-- In a bracket, either it is closed or an item is read. -/
theorem Step.of_inside {place : BracketPlace} (h : Step (.inside place) t ph') :
    t.kind = .rBracket ∧ ph' = .outside ∧ place ≠ .afterDash ∨
      t.kind.standsInBracket ∧ ph' = .inside (place.after t) ∧
        (t.kind = .rangeDash → place = .afterRangeStart) := by
  cases h with
  | item kind _ dash => exact .inr ⟨kind, rfl, dash⟩
  | closeBracket kind _ _ dash => exact .inl ⟨kind, rfl, dash⟩
  | plain place | openGroup place | openBracket place | lower place => simp at place

end Phase

namespace Parser

variable {g : Grammar} {p p' : Parser} {t : Token} {ph ph' : Phase} {f : Fault}

theorem not_isInternal_of_repetition {d : Dialect} (h : p.repetition d t = .error f) :
    f.isInternal = false := by
  unfold repetition at h
  cases hbranch : p.group.branch <;> rw [hbranch] at h <;> dsimp only at h <;> split_ifs at h <;>
    cases h <;> rfl

/-- An element shows no fault of this sort, unless it closes a group that was not opened. -/
theorem not_isInternal_of_element (h : p.element g t = .error f)
    (hclose : t.kind = .rParen → p.outer ≠ []) : f.isInternal = false := by
  unfold element at h
  cases hk : t.kind <;> rw [hk] at h
  case lParen =>
    dsimp only [openGroup] at h
    split_ifs at h
    cases h
    rfl
  case rParen =>
    dsimp only [closeGroup] at h
    cases houter : p.outer with
    | nil => exact absurd houter (hclose hk)
    | cons group outer =>
      rw [houter] at h
      cases h
  case repLower => exact not_isInternal_of_repetition h
  case assertion =>
    dsimp only [assertion] at h
    split_ifs at h
    cases h
    rfl
  case backRef =>
    cases h
    split_ifs <;> rfl
  all_goals cases h <;> rfl

theorem not_isInternal_of_singleElement {span : List Char} (h : singleElement span = .error f) :
    f.isInternal = false := by
  obtain ⟨_, -, rfl⟩ := mapError_eq_error.mp h
  rfl

theorem not_isInternal_of_bracketItem {place : BracketPlace} {set : CharSet}
    {rangeStart : Option Char} (h : p.bracketItem set rangeStart t = .error f)
    (hstep : Phase.Step (.inside place) t ph') (hnames : t.NamesClass)
    (hstart : place = .afterRangeStart → rangeStart ≠ none) : f.isInternal = false := by
  have hkind : t.kind = .rBracket ∨ t.kind.standsInBracket :=
    hstep.of_inside.imp And.left And.left
  unfold bracketItem at h
  cases hk : t.kind <;> rw [hk] at h hkind
  case collate =>
    rcases bind_eq_error.mp h with h | ⟨_, -, h⟩
    · exact not_isInternal_of_singleElement h
    · cases h
  case equiv =>
    rcases bind_eq_error.mp h with h | ⟨_, -, h⟩
    · exact not_isInternal_of_singleElement h
    · cases h
  case className =>
    dsimp only at h
    cases hname : CharClass.ofName? t.string <;> rw [hname] at h <;> cases h
    rfl
  case charClass =>
    dsimp only at h
    obtain ⟨k, hletter⟩ := Option.isSome_iff_exists.mp (hnames hk)
    rw [hletter] at h
    cases h
  case rangeDash =>
    obtain ⟨hplace, -⟩ := hstep.eq_rangeStart hk
    cases hplace
    cases rangeStart with
    | none => exact absurd rfl (hstart rfl)
    | some start => cases h
  case rBracket => cases h
  case negation => cases h
  case bracketLiteral => cases h
  all_goals rcases hkind with hkind | hkind <;> cases hkind

theorem not_isInternal_of_rangeEnd {set : CharSet} {start : Char}
    (h : p.rangeEnd set start t = .error f) : f.isInternal = false := by
  rw [Descent.rangeEnd_eq_withRange] at h
  rcases bind_eq_error.mp h with h | ⟨_, -, h⟩
  · have hrange {last : Char} (h : (set.addRange start last).mapError (fun _ => .reversedRange) =
        .error f) : f.isInternal = false := by
      obtain ⟨_, -, rfl⟩ := mapError_eq_error.mp h
      rfl
    unfold Descent.withRange at h
    dsimp only at h
    cases hk : t.kind <;> rw [hk] at h
    case bracketLiteral => exact hrange h
    case collate =>
      rcases bind_eq_error.mp h with h | ⟨_, -, h⟩
      · exact not_isInternal_of_singleElement h
      · exact hrange h
    all_goals cases h; rfl
  · cases h

/-- The bounds that are read together are those of a repetition. -/
theorem exists_upperBound {lower : Nat} (hk : t.kind = .repUpper) (hle : lower ≤ t.count)
    (hreachable : Reachable t.count) : ∃ b, p.upperBound lower t = .ok (p.bounded b) := by
  have hlimit : Brace.largestWritten ≤ unbounded := by decide
  have hupper : t.count ≤ unbounded := by
    rcases hreachable with h | h
    · exact Nat.le_trans h hlimit
    · exact Nat.le_of_eq h
  rw [upperBound_eq p lower hk, Bounds.between?, dif_pos ⟨hle, hupper⟩]
  exact ⟨_, rfl⟩

/-- A token that may stand in a phase shows no internal fault to a parser that expects what the
phase has. -/
theorem not_isInternal_of_step (hsuits : Suits ph p.expecting) (hstep : Phase.Step ph t ph')
    (hnames : ph.context = .bracket → t.NamesClass) (hclose : t.kind = .rParen → p.outer ≠ [])
    (h : p.step g t = .error f) : f.isInternal = false := by
  unfold step at h
  generalize hp : p.expecting = e at hsuits h
  cases hsuits with
  | element => exact not_isInternal_of_element h hclose
  | branchEnd =>
    dsimp only at h
    split_ifs at h
    · cases h
      rfl
    · exact not_isInternal_of_element h hclose
  | groupStart =>
    dsimp only at h
    cases hk : t.kind <;> rw [hk] at h
    case noSubexp => cases h
    case positiveLookahead => cases h; rfl
    case negativeLookahead => cases h; rfl
    all_goals exact not_isInternal_of_element h hclose
  | upperBound lower =>
    cases hstep with
    | upper kind le reachable =>
      obtain ⟨b, hb⟩ := exists_upperBound (p := p) kind le reachable
      cases hb.symm.trans h
    | plain place | openGroup place | openBracket place | lower place => simp at place
  | bracketItem _ hstart => exact not_isInternal_of_bracketItem h hstep (hnames rfl) hstart
  | rangeEnd => exact not_isInternal_of_rangeEnd h

theorem TakesElement.suits (h : p.TakesElement t p') (hstep : Phase.Step ph t ph')
    (hph : ph.context ≠ .bracket) : Suits ph' p'.expecting := by
  cases h with
  | push _ kind =>
    have hplain : t.kind.isPlain := by
      rcases kind with hk | hk | hk | hk <;> rw [hk] <;> rfl
    rw [hstep.after_plain (.inl hplain) hph]
    exact .element
  | dollar kind =>
    rw [hstep.after_plain (.inl (by rw [kind]; rfl)) hph]
    exact .branchEnd
  | closeGroup kind | alternation kind =>
    rw [hstep.after_plain (.inl (by rw [kind]; rfl)) hph]
    exact .element
  | openGroup kind =>
    rw [hstep.begins.1 kind]
    exact .groupStart
  | openBracket kind =>
    rw [hstep.begins.2.1 kind]
    exact .bracketItem nofun nofun
  | repetition kind =>
    rw [hstep.begins.2.2 kind]
    exact .upperBound t.count

/-- Behind an item of a bracket a dash makes a range only if the item may start one. -/
theorem OnItem.suits {place : BracketPlace} {set : CharSet} {rangeStart : Option Char}
    (h : p.OnItem set rangeStart t p') (hstep : Phase.Step (.inside place) t ph') :
    Suits ph' p'.expecting := by
  rcases hstep.of_inside with ⟨kind, rfl, -⟩ | ⟨kind, rfl, hdash⟩
  · cases h with
    | close => exact .element
    | negate hk | char hk | collate hk | equiv hk | named hk | escape hk | dash hk =>
      rw [kind] at hk
      cases hk
  have hitem {set : CharSet} {rangeStart : Option Char} (hk : t.kind ≠ .rangeDash)
      (hstart : t.kind = .bracketLiteral ∨ t.kind = .collate → rangeStart ≠ none) :
      Suits (.inside (place.after t)) (.bracketItem set rangeStart) := by
    refine .bracketItem (fun hp => hk (BracketPlace.dash_of_afterDash hp)) fun hp => ?_
    exact hstart (BracketPlace.rangeStart_of_after hp).1
  cases h with
  | close hk =>
    rw [hk] at kind
    cases kind
  | negate hk | equiv hk | named hk | escape hk => exact hitem (by simp [hk]) (by simp [hk])
  | char hk | collate hk => exact hitem (by simp [hk]) (by simp)
  | dash hk =>
    rw [hdash hk, BracketPlace.after_dash hk]
    exact .rangeEnd

theorem OnRangeEnd.suits {set : CharSet} {start : Char} (h : p.OnRangeEnd set start t p')
    (hstep : Phase.Step (.inside .afterDash) t ph') : Suits ph' p'.expecting := by
  rcases hstep.of_inside with ⟨-, -, hplace⟩ | ⟨-, rfl, hdash⟩
  · contradiction
  have hitem {set : CharSet} :
      Suits (.inside (BracketPlace.afterDash.after t)) (.bracketItem set none) := by
    refine .bracketItem (fun hp => ?_) fun hp => ?_
    · cases hdash (BracketPlace.dash_of_afterDash hp)
    · exact absurd rfl (BracketPlace.rangeStart_of_after hp).2
  cases h with
  | char | collate => exact hitem

theorem OnToken.suits (h : p.OnToken g t p') (hsuits : Suits ph p.expecting)
    (hstep : Phase.Step ph t ph') : Suits ph' p'.expecting := by
  cases h with
  | element context h | groupStart context h | afterDollar context _ h =>
    rw [context] at hsuits
    cases hsuits
    exact h.takesElement.suits hstep nofun
  | qualifier context kind =>
    rw [context] at hsuits
    cases hsuits
    rw [hstep.after_plain (.inr (by rw [kind]; rfl)) nofun]
    exact .element
  | upperBound context h =>
    rw [context] at hsuits
    cases hsuits
    cases hstep with
    | upper => cases h <;> exact .element
    | plain place | openGroup place | openBracket place | lower place => simp at place
  | item context h =>
    rw [context] at hsuits
    cases hsuits
    exact h.suits hstep
  | rangeEnd context h =>
    rw [context] at hsuits
    cases hsuits
    exact h.suits hstep

end Parser

variable {d : Dialect} {ignoreCase : Bool} {g : Grammar} {s s' : TokenReader} {p p' : Parser}
  {t : Token} {f : Fault}

/-- What the parser goes by is so in the reader too. -/
structure Tracks (d : Dialect) (ignoreCase : Bool) (s : TokenReader) (p : Parser) : Prop where
  agrees : Agrees d ignoreCase s p
  phase : ∃ ph, s.Stands ph ∧ Suits ph p.expecting
  named : ∀ u ∈ s.bracket.ahead.items, u.NamesClass

theorem tracks_start (text : List Char) : Tracks d ignoreCase (.start d ignoreCase text) {} :=
  ⟨agrees_start text, ⟨.outside, TokenReader.stands_start _ _ _, .element⟩, List.forall_mem_nil _⟩

namespace Tracks

theorem step (h : Tracks d ignoreCase s p) (hread : s.read = .ok (some (t, s')))
    (hp : p.step g t = .ok p') : Tracks d ignoreCase s' p' := by
  obtain ⟨ph, hstands, hsuits⟩ := h.phase
  obtain ⟨ph', hstep, hstands'⟩ := TokenReader.stands_of_read hstands hread
  exact ⟨h.agrees.step hread (Parser.takes_of_step hp),
    ⟨ph', hstands', (Parser.step_eq_ok_iff.mp hp).suits hsuits hstep⟩,
    (TokenReader.namesClass_of_read h.named hread).2⟩

theorem not_isInternal (h : Tracks d ignoreCase s p) (hread : s.read = .ok (some (t, s')))
    (hp : p.step g t = .error f) : f.isInternal = false := by
  obtain ⟨ph, hstands, hsuits⟩ := h.phase
  obtain ⟨ph', hstep, -⟩ := TokenReader.stands_of_read hstands hread
  refine Parser.not_isInternal_of_step hsuits hstep (fun hc => ?_) (fun hk => ?_) hp
  · exact (TokenReader.namesClass_of_read h.named hread).1 (hstands.context.trans hc)
  · obtain ⟨u, hu, hnesting, -⟩ := TokenReader.read_eq_some_iff.mp hread
    have hsame : u.nesting = ⟨p.outer.length⟩ := by
      rw [← h.agrees.nesting]
      cases TokenReader.readInContext_eq_some_iff.mp hu <;> rfl
    rw [hsame, hk] at hnesting
    intro houter
    rw [houter] at hnesting
    cases hnesting

/-- There is no end where a bound is missing. -/
theorem not_isInternal_finish (h : Tracks d ignoreCase s p) (hread : s.read = .ok none)
    (hp : p.finish = .error f) : f.isInternal = false := by
  obtain ⟨ph, hstands, hsuits⟩ := h.phase
  unfold Parser.finish at hp
  generalize p.expecting = e at hsuits hp
  cases hsuits with
  | element =>
    dsimp only at hp
    split_ifs at hp
    cases hp
    rfl
  | upperBound lower =>
    obtain ⟨t, s', hsome⟩ := TokenReader.exists_read_of_repeated hstands
    cases hread.symm.trans hsome
  | branchEnd | groupStart | bracketItem | rangeEnd =>
    cases hp
    rfl

theorem not_isInternal_run {offset : Nat} (h : Tracks d ignoreCase s p)
    (hrun : Descent.run g p s = .error (.grammar f offset)) : f.isInternal = false := by
  induction s using TokenReader.stream.induct generalizing p with
  | case1 s e read =>
    have hget := TokenReader.get_eq h.agrees.returned h.agrees.error
    rw [read] at hget
    rw [Descent.run_of_error (Descent.take_of_error hget)] at hrun
    cases hrun
  | case2 s read =>
    have hget := TokenReader.get_eq h.agrees.returned h.agrees.error
    rw [read] at hget
    rw [Descent.run_of_end (Descent.take_eq_none_iff.mpr ⟨s, hget⟩)] at hrun
    obtain ⟨f', hfinish, hf⟩ := mapError_eq_error.mp hrun
    cases hf
    exact h.not_isInternal_finish read hfinish
  | case3 s t s' read ih =>
    have hget := TokenReader.get_eq h.agrees.returned h.agrees.error
    rw [read] at hget
    have htake := Descent.take_of_get hget
    cases hp : p.step g t with
    | error f' =>
      rw [Descent.run_of_fault htake hp] at hrun
      cases hrun
      exact h.not_isInternal read hp
    | ok q =>
      rw [Descent.run_of_step htake hp] at hrun
      exact ih (h.step read hp) hrun

end Tracks

namespace Descent

theorem not_isInternal_of_pattern {flags : Flags} {text : String} {offset : Nat}
    (h : pattern g (.ofPattern flags text) = .error (.grammar f offset)) :
    f.isInternal = false := by
  rw [pattern_eq_run (clear_ofPattern flags text).sound] at h
  exact (tracks_start text.toList).not_isInternal_run h

theorem exists_token_of_take {e : ParseError} (h : take s = .error e) : ∃ e', e = .token e' := by
  unfold take at h
  split at h <;> cases h
  exact ⟨_, rfl⟩

/-- Behind the alternation that a text is there is nothing but the end, or a fault of the text. -/
theorem take_after_alternation {flags : Flags} {text : String}
    {r : Reading (.ofPattern flags text) Pattern}
    (h : alternation g 0 (.ofPattern flags text) = .ok r) :
    take r.rest = .ok none ∨ ∃ e, take r.rest = .error (.token e) := by
  cases htake : take r.rest with
  | error e =>
    obtain ⟨e', rfl⟩ := exists_token_of_take htake
    exact .inr ⟨e', rfl⟩
  | ok next =>
    cases next with
    | none => exact .inl rfl
    | some next =>
      have hpattern : pattern g (.ofPattern flags text) = fault next.2.val .unopenedGroup := by
        rw [pattern_eq, h]
        change (take r.rest >>= _) = _
        rw [htake]
        rfl
      have hinternal := not_isInternal_of_pattern hpattern
      cases hinternal

end Descent

/-- Compiling is a descent, and whatever is compiled, the descent never comes to the guards: behind
the whole pattern no token is left, the bounds of a repetition are read together and in order, a
dash makes a range only behind its start, escapes in brackets are those of classes, and in a bracket
nothing stands that is neither an item nor its end. -/
theorem compile_not_isInternal (flags : Flags) (text : String) :
    (∀ tag, compile flags text tag = Descent.compile flags text tag) ∧
    (∀ f offset, Descent.pattern (.ofFlags flags) (.ofPattern flags text) =
      .error (.grammar f offset) → f.isInternal = false) ∧
    ∀ r, Descent.alternation (.ofFlags flags) 0 (.ofPattern flags text) = .ok r →
      Descent.take r.rest = .ok none ∨ ∃ e, Descent.take r.rest = .error (.token e) :=
  ⟨compile_eq_descent flags text, fun _ _ => Descent.not_isInternal_of_pattern,
    fun _ => Descent.take_after_alternation⟩

/-- A star that has nothing to repeat is a fault, but none of the guards; behind a dot there is
nothing left. -/
theorem faults_of_leading_star :
    Descent.pattern (.ofFlags [.extended]) (.ofPattern [.extended] "*") =
      .error (.grammar .nothingToRepeat 1) ∧ Fault.nothingToRepeat.isInternal = false ∧
    ∃ r, Descent.alternation (.ofFlags [.extended]) 0 (.ofPattern [.extended] ".") = .ok r ∧
      (Descent.take r.rest = .ok none ∨ ∃ e, Descent.take r.rest = .error (.token e)) := by
  have hstar : Descent.pattern (.ofFlags [.extended]) (.ofPattern [.extended] "*") =
      .error (.grammar .nothingToRepeat 1) := by
    have hget : (TokenReader.ofPattern [.extended] "*").get =
        (.ok (some ⟨.repLower, '*', 0, []⟩), _) := rfl
    have htake := Descent.take_of_get hget
    rw [Descent.pattern_eq_run (Descent.clear_ofPattern _ _).sound]
    exact Descent.run_of_fault htake rfl
  have hdot : Descent.pattern (.ofFlags [.extended]) (.ofPattern [.extended] ".") =
      .ok .any := by
    have hget : (TokenReader.ofPattern [.extended] ".").get =
        (.ok (some (.ofChar .charClass '.')), _) := rfl
    have htake := Descent.take_of_get hget
    have hstep : Parser.step (.ofFlags [.extended]) {} (.ofChar .charClass '.') =
        .ok (Parser.push {} .any) := rfl
    rw [Descent.pattern_eq_run (Descent.clear_ofPattern _ _).sound, Descent.run_of_step htake hstep]
    exact Descent.run_of_end (Descent.take_eq_none_iff.mpr ⟨_, rfl⟩)
  refine ⟨hstar, (compile_not_isInternal [.extended] "*").2.1 _ _ hstar, ?_⟩
  cases h : Descent.alternation (.ofFlags [.extended]) 0 (.ofPattern [.extended] ".") with
  | error e =>
    rw [Descent.pattern_eq, h] at hdot
    cases hdot
  | ok r => exact ⟨r, rfl, (compile_not_isInternal [.extended] ".").2.2 r h⟩

end IncrementalRegex
