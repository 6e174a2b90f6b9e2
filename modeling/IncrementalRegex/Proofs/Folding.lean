import IncrementalRegex.Proofs.CaseVariants
import IncrementalRegex.Proofs.Kinds

namespace IncrementalRegex

namespace Token

/-- The token as a reader that ignores case returns it. -/
def folded (t : Token) : Token :=
  match t.kind with
  | .literal => { t with char := foldCase t.char }
  | .stringLiteral => { t with string := t.string.map foldCase }
  | _ => t

variable {t : Token}

@[simp] theorem kind_folded (t : Token) : t.folded.kind = t.kind := by
  unfold folded
  split <;> rfl

@[simp] theorem hasKind_folded (t : Token) (kind : TokenKind) :
    t.folded.hasKind kind = t.hasKind kind := by
  rw [hasKind, kind_folded, hasKind]

theorem folded_eq_self (h : t.kind ≠ .literal) (h' : t.kind ≠ .stringLiteral) : t.folded = t := by
  unfold folded
  split <;> first | contradiction | rfl

/-- What can stand in a bracket is not folded. -/
theorem folded_of_bracket (h : t.kind.standsInBracket ∨ t.kind = .rBracket) : t.folded = t := by
  apply folded_eq_self <;> intro hk <;> rw [hk] at h <;> rcases h with h | h <;> cases h

theorem count_folded (t : Token) : t.folded.count = t.count := by
  unfold folded
  split <;> rfl

theorem char_folded (h : t.hasKind .literal = false) : t.folded.char = t.char := by
  have hne : t.kind ≠ .literal := by simpa [hasKind] using h
  unfold folded
  split <;> first | contradiction | rfl

theorem folded_of_literal (h : t.hasKind .literal) : t.folded.char = foldCase t.char := by
  rw [folded, eq_of_beq h]

theorem string_folded (h : t.kind = .stringLiteral) :
    t.folded.string = t.string.map foldCase := by
  rw [folded, h]

end Token

variable {d : Dialect} {c c' : Cursor} {t : Token}

namespace Lexicon

theorem tokenOf_folded {kind : TokenKind} {x : Char}
    (h : (expression d false).tokenOf kind x c = .ok (t, c')) :
    (expression d true).tokenOf kind x c = .ok (t.folded, c') := by
  rw [tokenOf_eq_ok_iff] at h ⊢
  cases h with
  | simpleBackRef => exact .simpleBackRef
  | compoundBackRef number => exact .compoundBackRef number
  | count number => exact .count number
  | hex digits => exact .hex digits
  | noHex digits => exact .noHex digits
  | unicode digits code => exact .unicode digits code
  | noUnicode digits => exact .noUnicode digits
  | controlChar => exact .controlChar
  | control next letter => exact .control next letter
  | @named _ span _ names closed =>
    have hfolded : (Token.ofString kind span).folded = .ofString kind span := by
      rcases names with rfl | rfl | rfl <;> rfl
    rw [hfolded]
    exact .named names closed
  | literal ordinary => exact .literal ordinary
  | itself itself =>
    have hfolded : (Token.ofChar kind x).folded = .ofChar kind x := by
      cases kind <;> first | rfl | cases itself
    rw [hfolded]
    exact .itself itself

/-- Every character is something, so that only an end is nothing. -/
theorem read_none_folded (h : (expression d false).read c = .ok none) :
    (expression d true).read c = .ok none :=
  read_of_rest_nil (rest_of_read_none (ExpressionReader.total_lexicon ⟨d, false, {}⟩) h)

theorem read_folded (h : (expression d false).read c = .ok (some (t, c'))) :
    (expression d true).read c = .ok (some (t.folded, c')) := by
  rw [read_eq_some_iff] at h ⊢
  cases h with
  | pair next escape token => exact .pair next escape (tokenOf_folded token)
  | alone next escape entry token => exact .alone next escape entry (tokenOf_folded token)

end Lexicon

namespace ExpressionReader

variable {r r' : ExpressionReader}

theorem ordinaryRun_folded {e : Cursor} {run : List Char} {repeated : Bool}
    (h : ordinaryRun (.expression d false) c = .ok (run, repeated, e)) :
    ordinaryRun (.expression d true) c = .ok (run.map foldCase, repeated, e) := by
  generalize hl : Lexicon.expression d false = l at h
  fun_induction ordinaryRun l c generalizing run repeated e with
  | case1 | case3 => cases h
  | case2 c read =>
    subst hl
    cases h
    exact ordinaryRun_of_end (Lexicon.read_none_folded read)
  | case4 c t next read literal run' repeated' e' hrun ih =>
    subst hl
    cases h
    have hliteral : t.folded.hasKind .literal := by rwa [Token.hasKind_folded]
    have hrun := ordinaryRun_of_literal (Lexicon.read_folded read) hliteral (ih hrun)
    rwa [Token.folded_of_literal literal] at hrun
  | case5 c t next read literal =>
    subst hl
    cases h
    have hliteral : t.folded.hasKind .literal = false := by
      rw [Token.hasKind_folded]
      exact eq_false_of_ne_true literal
    have hrun := ordinaryRun_of_sign (Lexicon.read_folded read) hliteral
    rwa [Token.hasKind_folded, Token.hasKind_folded] at hrun

theorem bounds_folded (h : t.hasKind .literal = false) : bounds? d t.folded c = bounds? d t c := by
  by_cases hs : t.kind = .stringLiteral
  · have hkind : t.folded.kind = .stringLiteral := by rw [Token.kind_folded, hs]
    simp only [bounds?, hs, hkind]
  · have hl : t.kind ≠ .literal := by simpa [Token.hasKind] using h
    rw [Token.folded_eq_self hl hs]

/-- The reader with everything it holds back folded. -/
def folded (r : ExpressionReader) : ExpressionReader :=
  { r with ignoreCase := true, pending := ⟨r.pending.items.map Token.folded⟩ }

theorem folded_push (r : ExpressionReader) (t : Token) :
    folded { r with pending := r.pending.push t } =
      { r.folded with pending := r.folded.pending.push t.folded } := by
  simp [folded, Queue.push]

theorem read_folded (hr : r.ignoreCase = false) (h : r.read c = .ok (some (t, r', c'))) :
    r.folded.read c = .ok (some (t.folded, r'.folded, c')) ∧ r'.ignoreCase = false := by
  have hlexicon : r.lexicon = .expression r.dialect false := by rw [lexicon, hr]
  have hempty (h : r.pending = {}) : r.folded.pending = {} := by rw [folded, h]; rfl
  have hsign {u : Token} (hu : u.hasKind .literal = false) : u.folded.hasKind .literal = false := by
    rwa [Token.hasKind_folded]
  have hliteral {u : Token} (hu : u.hasKind .literal) : u.folded.hasKind .literal := by
    rwa [Token.hasKind_folded]
  rw [read_eq_some_iff] at h ⊢
  cases h with
  | @known _ pending hp =>
    refine ⟨.known ?_, hr⟩
    rw [Queue.pop_eq_some_iff] at hp ⊢
    simp [folded, hp]
  | single empty first literal later =>
    rw [hlexicon] at first later
    refine ⟨?_, hr⟩
    have hsingle := Reads.single (r := r.folded) (hempty empty) (Lexicon.read_folded first)
      (hliteral literal) (ordinaryRun_folded later)
    rwa [Token.folded_of_literal literal] at hsingle
  | @cut _ _ _ run last empty first literal later =>
    rw [hlexicon] at first later
    refine ⟨?_, hr⟩
    have hrun := ordinaryRun_folded later
    rw [List.map_append] at hrun
    have hcut := Reads.cut (r := r.folded) (hempty empty) (Lexicon.read_folded first)
      (hliteral literal) hrun
    rw [Token.folded_of_literal literal] at hcut
    rw [folded_push]
    exact hcut
  | whole empty first literal later =>
    rw [hlexicon] at first later
    refine ⟨?_, hr⟩
    have hwhole := Reads.whole (r := r.folded) (hempty empty) (Lexicon.read_folded first)
      (hliteral literal) (ordinaryRun_folded later)
    rwa [Token.folded_of_literal literal] at hwhole
  | sign empty first literal bounds =>
    rw [hlexicon] at first
    refine ⟨.sign (hempty empty) (Lexicon.read_folded first) (hsign literal) ?_, hr⟩
    exact (bounds_folded literal).trans bounds
  | repetition empty first literal bounds =>
    rw [hlexicon] at first
    refine ⟨?_, hr⟩
    have hbounds := (bounds_folded literal).trans bounds
    have hrepetition := Reads.repetition (r := r.folded) (hempty empty) (Lexicon.read_folded first)
      (hsign literal) hbounds
    rw [Token.char_folded literal] at hrepetition
    rw [folded_push]
    exact hrepetition

theorem read_none_folded (h : r.read c = .ok none) : r.folded.read c = .ok none := by
  obtain ⟨hpending, hrest⟩ := rest_of_read_none h
  have hempty : r.folded.pending.pop? = none := by
    rw [folded, hpending]
    rfl
  simp only [read, hempty, Lexicon.read_of_rest_nil hrest, bind, Except.bind]
  rfl

end ExpressionReader

namespace BracketReader

variable {r r' : BracketReader}

/-- Whatever is held back can stand in brackets. -/
def IsSteady (r : BracketReader) : Prop := ∀ t ∈ r.ahead.items, t.folded = t

theorem folded_meaning (p : BracketPlace) (h : t.folded = t) :
    (p.meaning t).folded = p.meaning t := by
  unfold BracketPlace.meaning
  split <;> first | exact h | rfl

theorem folded_of_read (hr : r.IsSteady) (h : r.read d c = .ok (some (t, r', c'))) :
    t.folded = t ∧ r'.IsSteady := by
  have hlexicon {u : Token} {e e' : Cursor} (h : (Lexicon.bracket d).read e = .ok (some (u, e'))) :
      u.folded = u := Token.folded_of_bracket (Lexicon.kind_of_read_bracket h)
  have hraw {u : Token} {ahead : Queue Token} {e : Cursor}
      (raw : r.raw d c = .ok (some (u, ahead, e))) :
      u.folded = u ∧ ∀ v ∈ ahead.items, v.folded = v := by
    rcases raw_eq_some_iff.mp raw with ⟨hp, -⟩ | ⟨-, rfl, hl⟩
    · have hahead := hr
      rw [IsSteady, hp, List.forall_mem_cons] at hahead
      exact hahead
    · exact ⟨hlexicon hl, List.forall_mem_nil _⟩
  have hpush {v : Token} {ahead : Queue Token} (hv : v.folded = v)
      (ha : ∀ u ∈ ahead.items, u.folded = u) : ∀ u ∈ (ahead.push v).items, u.folded = u := by
    simp only [Queue.push, List.mem_append, List.mem_singleton]
    rintro u (hu | rfl)
    · exact ha u hu
    · exact hv
  cases read_eq_some_iff.mp h with
  | plain raw | lastDash raw => exact ⟨folded_meaning _ (hraw raw).1, (hraw raw).2⟩
  | dash raw _ next =>
    exact ⟨folded_meaning _ (hraw raw).1, hpush (hlexicon next) (hraw raw).2⟩
  | literalDash raw _ next => exact ⟨rfl, hpush (hlexicon next) (hraw raw).2⟩

end BracketReader

namespace TokenReader

variable {s s' : TokenReader}

/-- The reader that ignores case where `s` does not. -/
def folded (s : TokenReader) : TokenReader := { s with expression := s.expression.folded }

/-- The reader keeps case, and all that is held back of a bracket can stand there. -/
structure KeepsCase (s : TokenReader) : Prop where
  expression : s.expression.ignoreCase = false
  bracket : s.bracket.IsSteady

theorem readInContext_folded (hs : s.KeepsCase) (h : s.readInContext = .ok (some (t, s'))) :
    s.folded.readInContext = .ok (some (t.folded, s'.folded)) ∧ s'.KeepsCase := by
  rw [readInContext_eq_some_iff] at h ⊢
  cases h with
  | expression context h =>
    obtain ⟨hread, hcase⟩ := ExpressionReader.read_folded hs.expression h
    exact ⟨.expression context hread, hcase, hs.bracket⟩
  | bracket context h =>
    obtain ⟨ht, hsteady⟩ := BracketReader.folded_of_read hs.bracket h
    rw [ht]
    exact ⟨.bracket context h, hs.expression, hsteady⟩
  | group context h =>
    have ht : t.folded = t := by
      have hkind := Lexicon.kind_of_read_group h
      apply Token.folded_eq_self <;> intro hk <;> rw [hk] at hkind <;> cases hkind
    rw [ht]
    exact ⟨.group context h, hs.expression, hs.bracket⟩
  | element context group h =>
    obtain ⟨hread, hcase⟩ := ExpressionReader.read_folded hs.expression h
    exact ⟨.element context group hread, hcase, hs.bracket⟩

theorem read_folded (hs : s.KeepsCase) (h : s.read = .ok (some (t, s'))) :
    s.folded.read = .ok (some (t.folded, s'.folded)) ∧ s'.KeepsCase := by
  obtain ⟨u, hread, hnesting, rfl⟩ := read_eq_some_iff.mp h
  obtain ⟨hfolded, hu⟩ := readInContext_folded hs hread
  have hnothing : u.folded.nesting.closesNothing t.folded.kind = false := by
    rw [Token.kind_folded]
    exact hnesting
  refine ⟨read_eq_some_iff.mpr ⟨_, hfolded, hnothing, ?_⟩, hu.expression, hu.bracket⟩
  rw [Token.kind_folded]
  rfl

theorem readInContext_none_folded (h : s.readInContext = .ok none) :
    s.folded.readInContext = .ok none := by
  have hcontext : s.folded.context = s.context := rfl
  unfold readInContext at h ⊢
  rw [hcontext]
  cases hc : s.context <;> rw [hc] at h
  case expression =>
    obtain ⟨_ | ⟨t, r, c⟩, hread, h⟩ := bind_eq_ok.1 h
    · exact bind_eq_ok.2 ⟨none, ExpressionReader.read_none_folded hread, rfl⟩
    · cases h
  case bracket =>
    obtain ⟨_ | ⟨t, r, c⟩, hread, h⟩ := bind_eq_ok.1 h
    · exact bind_eq_ok.2 ⟨none, hread, rfl⟩
    · cases h
  case subexpression =>
    obtain ⟨_ | ⟨t, c⟩, hgroup, h⟩ := bind_eq_ok.1 h
    · obtain ⟨_ | ⟨t, r, c⟩, hread, h⟩ := bind_eq_ok.1 h
      · exact bind_eq_ok.2 ⟨none, hgroup,
          bind_eq_ok.2 ⟨none, ExpressionReader.read_none_folded hread, rfl⟩⟩
      · cases h
    · cases h

theorem read_none_folded (h : s.read = .ok none) : s.folded.read = .ok none := by
  obtain ⟨_ | ⟨t, u⟩, hread, h⟩ := bind_eq_ok.1 h
  · exact bind_eq_ok.2 ⟨none, readInContext_none_folded hread, rfl⟩
  · dsimp only at h
    split at h <;> cases h

end TokenReader

def CharTest.folded : CharTest → CharTest
  | .inSet s => .inSet s.ignoringCase
  | t => t

namespace Pattern

mutual

/-- The pattern that the folded tokens spell. -/
def folded : Pattern → Pattern
  | one c => one (foldCase c)
  | text cs => text (cs.map foldCase)
  | any => any
  | satisfying t => satisfying t.folded
  | concat ps => concat (allFolded ps)
  | either ps => either (allFolded ps)
  | repeated p b => repeated (folded p) b
termination_by structural p => p

def allFolded : List Pattern → List Pattern
  | [] => []
  | p :: ps => folded p :: allFolded ps
termination_by structural ps => ps

end

theorem allFolded_eq_map (ps : List Pattern) : allFolded ps = ps.map folded := by
  induction ps with
  | nil => rfl
  | cons p ps ih => rw [allFolded, ih, List.map_cons]

theorem folded_ofText (cs : List Char) : (ofText cs).folded = ofText (cs.map foldCase) := by
  match cs with
  | [] => rfl
  | [_] => rfl
  | _ :: _ :: _ => rfl

theorem folded_join {combine : List Pattern → Pattern}
    (hc : ∀ ps, (combine ps).folded = combine (allFolded ps)) (ps : List Pattern) :
    (join combine ps).folded = join combine (ps.map folded) := by
  match ps with
  | [] => exact hc []
  | [_] => rfl
  | p :: q :: ps =>
    rw [← allFolded_eq_map]
    exact hc (p :: q :: ps)

end Pattern

namespace Group

def folded (g : Group) : Group := ⟨g.branches.map Pattern.folded, g.branch.map Pattern.folded⟩

theorem folded_push (g : Group) (p : Pattern) : (g.push p).folded = g.folded.push p.folded := rfl

theorem folded_closeBranch (g : Group) : g.closeBranch.folded = g.folded.closeBranch := by
  have hjoin : (Pattern.join .concat g.branch.reverse).folded =
      .join .concat (g.branch.reverse.map Pattern.folded) := Pattern.folded_join (fun _ => rfl) _
  simp [folded, closeBranch, hjoin, List.map_reverse]

theorem folded_pattern (g : Group) : g.pattern.folded = g.folded.pattern := by
  rw [pattern, pattern, Pattern.folded_join fun _ => rfl, ← folded_closeBranch]
  simp [folded, List.map_reverse]

end Group

def Expecting.folded : Expecting → Expecting
  | bracketItem s r => bracketItem s.ignoringCase r
  | rangeEnd s r => rangeEnd s.ignoringCase r
  | e => e

def Grammar.ignoringCase (g : Grammar) : Grammar := { g with ignoreCase := true }

namespace Parser

/-- The parser of the folded tokens. -/
def folded (p : Parser) : Parser where
  group := p.group.folded
  outer := p.outer.map Group.folded
  stacked := p.stacked
  expecting := p.expecting.folded

variable {g : Grammar} {p p' : Parser}

theorem folded_push (p : Parser) (e : Pattern) : (p.push e).folded = p.folded.push e.folded := rfl

theorem folded_expect_upperBound (p : Parser) (lower : Nat) :
    (p.expect (.upperBound lower)).folded = p.folded.expect (.upperBound lower) := rfl

/-- The characters that the grammar itself adds are not changed by folding. -/
theorem folded_push_sign (p : Parser) {sign : Char} (h : sign ∈ ['*', '^', '$']) :
    (p.push (.one sign)).folded = p.folded.push (.one sign) := by
  have hfold : foldCase sign = sign := by
    simp only [List.mem_cons, List.not_mem_nil, or_false] at h
    rcases h with rfl | rfl | rfl <;> decide
  rw [folded_push, Pattern.folded, hfold]

theorem charClass_folded (d : Dialect) (letter : Char) :
    (charClass d letter).folded = charClass d letter := by
  unfold charClass
  split
  · rfl
  · split_ifs <;> rfl

theorem OnElement.folded {t : Token} (h : p.OnElement g t p') :
    p.folded.OnElement g.ignoringCase t.folded p'.folded := by
  have hkind := t.kind_folded
  have houter : p.folded.outer.length = p.outer.length := List.length_map _
  have hbranch : p.folded.group.branch = p.group.branch.map Pattern.folded := rfl
  cases h with
  | text kind =>
    rw [folded_push, Pattern.folded_ofText, ← Token.string_folded kind]
    exact .text (hkind.trans kind)
  | literal kind =>
    rw [folded_push, Pattern.folded, ← Token.folded_of_literal (beq_iff_eq.mpr kind)]
    exact .literal (hkind.trans kind)
  | charClass kind =>
    have hchar : t.folded.char = t.char := Token.char_folded (by rw [Token.hasKind, kind]; rfl)
    rw [folded_push, charClass_folded, ← hchar]
    exact .charClass (hkind.trans kind)
  | openGroup kind room =>
    rw [← houter] at room
    exact .openGroup (hkind.trans kind) room
  | closeGroup kind opened =>
    rw [folded_push, Group.folded_pattern]
    exact .closeGroup (hkind.trans kind) (congrArg (List.map Group.folded) opened)
  | openBracket kind => exact .openBracket (hkind.trans kind)
  | alternation kind =>
    have hclose := p.group.folded_closeBranch
    simp only [Parser.folded, hclose]
    exact .alternation (hkind.trans kind)
  | leadingStar kind start star =>
    have hchar : t.folded.char = t.char := Token.char_folded (by rw [Token.hasKind, kind]; rfl)
    rw [start] at hbranch
    rw [← hchar] at star
    rw [folded_expect_upperBound, ← t.count_folded]
    exact .leadingStar (hkind.trans kind) hbranch star
  | repetition kind last room =>
    rw [last] at hbranch
    rw [← houter] at room
    rw [folded_expect_upperBound, ← t.count_folded]
    exact .repetition (hkind.trans kind) hbranch room
  | caret kind caret =>
    have hchar : t.folded.char = t.char := Token.char_folded (by rw [Token.hasKind, kind]; rfl)
    have hne : p.folded.group.branch ≠ [] := by simpa [hbranch] using caret.2.2
    rw [folded_push_sign p (by simp)]
    exact .caret (hkind.trans kind) ⟨caret.1, hchar.trans caret.2.1, hne⟩
  | dollar kind dollar =>
    have hchar : t.folded.char = t.char := Token.char_folded (by rw [Token.hasKind, kind]; rfl)
    rw [← hchar] at dollar
    exact .dollar (hkind.trans kind) dollar

theorem OnUpperBound.folded {t : Token} {lower : Nat} (h : p.OnUpperBound lower t p') :
    p.folded.OnUpperBound lower t.folded p'.folded := by
  have hkind := t.kind_folded
  have hcount := t.count_folded
  have hbranch : p.folded.group.branch = p.group.branch.map Pattern.folded := rfl
  cases h with
  | star kind bounds start =>
    rw [start] at hbranch
    rw [← hcount] at bounds
    rw [folded_push_sign p (by simp)]
    exact .star (hkind.trans kind) bounds hbranch
  | repeated kind bounds last =>
    rw [last] at hbranch
    rw [← hcount] at bounds
    exact .repeated (hkind.trans kind) bounds hbranch

theorem OnItem.folded_eq {t : Token} {s : CharSet} {r : Option Char} (h : p.OnItem s r t p') :
    t.folded = t := by
  cases h with
  | close kind => exact Token.folded_of_bracket (.inr kind)
  | negate kind | char kind | collate kind | equiv kind | named kind | escape kind | dash kind =>
    exact Token.folded_of_bracket (.inl (by rw [kind]; rfl))

/-- What stands in a bracket is not folded, but the set is told to ignore case. -/
theorem OnItem.folded {t : Token} {s : CharSet} {r : Option Char} (h : p.OnItem s r t p') :
    p.folded.OnItem s.ignoringCase r t.folded p'.folded := by
  rw [h.folded_eq]
  cases h with
  | close kind => exact .close kind
  | negate kind => exact .negate kind
  | char kind => exact .char kind
  | collate kind element => exact .collate kind element
  | equiv kind element => exact .equiv kind element
  | named kind name => exact .named kind name
  | escape kind letter => exact .escape kind letter
  | dash kind known => exact .dash kind known

theorem addRange_ignoringCase {s s' : CharSet} {first last : Char}
    (h : s.addRange first last = .ok s') :
    s.ignoringCase.addRange first last = .ok s'.ignoringCase := by
  unfold CharSet.addRange at h ⊢
  split_ifs at h ⊢
  cases h
  rfl

theorem OnRangeEnd.folded_eq {t : Token} {s : CharSet} {start : Char}
    (h : p.OnRangeEnd s start t p') : t.folded = t := by
  cases h with
  | char kind | collate kind => exact Token.folded_of_bracket (.inl (by rw [kind]; rfl))

theorem OnRangeEnd.folded {t : Token} {s : CharSet} {start : Char}
    (h : p.OnRangeEnd s start t p') :
    p.folded.OnRangeEnd s.ignoringCase start t.folded p'.folded := by
  rw [h.folded_eq]
  cases h with
  | char kind range => exact .char kind (addRange_ignoringCase range)
  | collate kind element range => exact .collate kind element (addRange_ignoringCase range)

theorem OnToken.folded {t : Token} (h : p.OnToken g t p') :
    p.folded.OnToken g.ignoringCase t.folded p'.folded := by
  have hkind := t.kind_folded
  have hexpecting {e : Expecting} (context : p.expecting = e) : p.folded.expecting = e.folded :=
    congrArg Expecting.folded context
  cases h with
  | element context h => exact .element (hexpecting context) h.folded
  | qualifier context kind => exact .qualifier (hexpecting context) (hkind.trans kind)
  | groupStart context h => exact .groupStart (hexpecting context) h.folded
  | afterDollar context later h =>
    have h := h.folded
    rw [folded_push_sign p (by simp)] at h
    rw [← hkind] at later
    exact .afterDollar (hexpecting context) later h
  | upperBound context h => exact .upperBound (hexpecting context) h.folded
  | item context h => exact .item (hexpecting context) h.folded
  | rangeEnd context h => exact .rangeEnd (hexpecting context) h.folded

theorem finish_folded {pattern : Pattern} (h : p.finish = .ok pattern) :
    p.folded.finish = .ok pattern.folded := by
  obtain ⟨hexpecting, houter, rfl⟩ := finish_eq_ok_iff.mp h
  refine finish_eq_ok_iff.mpr ⟨?_, ?_, ?_⟩
  · rw [folded, hexpecting]
    rfl
  · rw [folded, houter]
    rfl
  · exact (Group.folded_pattern p.group).symm

end Parser

variable {g : Grammar} {s : TokenReader} {p : Parser} {pattern : Pattern}

theorem Spells.folded (h : Spells g s p pattern) (hs : s.KeepsCase) :
    Spells g.ignoringCase s.folded p.folded pattern.folded := by
  induction h with
  | done read finish =>
    exact .done (TokenReader.read_none_folded read) (Parser.finish_folded finish)
  | step read take _ ih =>
    obtain ⟨hread, hs⟩ := TokenReader.read_folded hs read
    exact .step hread (Parser.step_eq_ok_iff.mpr (Parser.step_eq_ok_iff.mp take).folded) (ih hs)

theorem Dialect.ofFlags_icase (flags : Flags) : ofFlags (.icase :: flags) = ofFlags flags := by
  simp [ofFlags]

/-- What compiles with case compiles also without, to the pattern with its characters folded. -/
theorem spells_icase {flags : Flags} {text : String} (hcase : .icase ∉ flags)
    (h : Spells (.ofFlags flags) (.ofPattern flags text) {} pattern) :
    Spells (.ofFlags (.icase :: flags)) (.ofPattern (.icase :: flags) text) {} pattern.folded := by
  have hkeeps : (TokenReader.ofPattern flags text).KeepsCase :=
    ⟨by simpa [TokenReader.ofPattern, TokenReader.start] using hcase, List.forall_mem_nil _⟩
  have hgrammar : (Grammar.ofFlags flags).ignoringCase = .ofFlags (.icase :: flags) := by
    rw [Grammar.ofFlags, Grammar.ofFlags, Dialect.ofFlags_icase]
    rfl
  have hreader : (TokenReader.ofPattern flags text).folded = .ofPattern (.icase :: flags) text := by
    rw [TokenReader.ofPattern, TokenReader.ofPattern, Dialect.ofFlags_icase]
    rfl
  rw [← hgrammar, ← hreader]
  exact h.folded hkeeps

end IncrementalRegex
