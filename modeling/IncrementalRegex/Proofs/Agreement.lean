import IncrementalRegex.Proofs.Outcome
import IncrementalRegex.Proofs.Taking
import IncrementalRegex.Proofs.Within

namespace IncrementalRegex

open Cursor

namespace Lexicon

variable {d : Dialect} {c c' : Cursor} {pre post : List Char} {t : Token}

theorem group_alone (d : Dialect) (x : Char) : (group d).alone.kind? x = none := by
  cases hx : x.isDigit <;> simp [group, KindTable.kind?, hx]

theorem group_table {x : Char} {table : KindTable} (h : (group d).pairs.lookup x = some table) :
    table = .groupOpener := by
  unfold group at h
  dsimp only at h
  split_ifs at h
  · rw [List.lookup_cons] at h
    split at h
    · exact (Option.some.inj h).symm
    · cases h
  · cases h

theorem group_not_dangling (h : (group d).read c = .ok (some (t, c'))) :
    ¬ (group d).Dangling c := by
  intro hm
  obtain ⟨x, hrest, -⟩ := hm
  have hnext : c.next? = some (x, ⟨x :: c.before, []⟩) := by rw [next?, hrest]
  cases read_eq_some_iff.mp h with
  | pair next escape =>
    obtain ⟨_, -, hend, -⟩ := escape_eq_some_iff.mp escape
    rw [hnext] at next
    cases next
    cases hend
  | alone _ _ entry =>
    rw [group_alone] at entry
    cases entry

theorem group_read_none (hpost : ∀ x ∈ post.head?, KindTable.groupOpener.kind? x = none)
    (hd : c.rest ≠ []) (h : (group d).read c = .ok none) :
    (group d).read (c.within pre post) = .ok none := by
  cases hnext : c.next? with
  | none => exact absurd (next_eq_none_iff.mp hnext) hd
  | some p =>
    obtain ⟨x, e⟩ := p
    have hescape : (group d).escape? x e = none := by
      cases he : (group d).escape? x e with
      | none => rfl
      | some q =>
        simp only [read, hnext, he] at h
        obtain ⟨_, -, hq⟩ := map_eq_ok.1 h
        cases hq
    have hwithin : (group d).escape? x (e.within pre post) = none := by
      by_cases hrest : e.rest = []
      · by_contra hne
        obtain ⟨⟨kind, y, f⟩, hsome⟩ := Option.ne_none_iff_exists'.mp hne
        obtain ⟨table, hx, hy, hkind⟩ := escape_eq_some_iff.mp hsome
        have hhead : post.head? = some y := by
          have hcons := rest_of_next hy
          simp only [Cursor.within, hrest, List.nil_append] at hcons
          rw [hcons]
          rfl
        rw [group_table hx, hpost y hhead] at hkind
        cases hkind
      · exact escape_within_none hescape (.inl hrest)
    simp only [read, next_within hnext, hwithin, group_alone]

end Lexicon

namespace ExpressionReader

variable {r r' : ExpressionReader} {c c' : Cursor} {t : Token}

theorem same_of_read (h : r.read c = .ok (some (t, r', c'))) :
    r'.dialect = r.dialect ∧ r'.ignoreCase = r.ignoreCase := by
  cases read_eq_some_iff.mp h <;> exact ⟨rfl, rfl⟩

theorem lexicon_of_read (h : r.read c = .ok (some (t, r', c'))) : r'.lexicon = r.lexicon := by
  obtain ⟨hdialect, hignore⟩ := same_of_read h
  rw [lexicon, lexicon, hdialect, hignore]

end ExpressionReader

namespace TokenReader

variable {s s' : TokenReader} {pre post : List Char} {t : Token}

def within (pre post : List Char) (s : TokenReader) : TokenReader :=
  { s with cursor := s.cursor.within pre post }

/-- What is next does not depend on what follows the text. -/
def Ready (s : TokenReader) : Prop :=
  match s.context with
  | .expression => s.expression.pending = {} → ¬ s.expression.lexicon.Dangling s.cursor
  | .bracket => s.cursor.rest ≠ [] ∨ s.bracket.Closing
  | .subexpression => s.cursor.rest ≠ []

theorem Ready.expression (h : s.Ready) (hc : s.context = .expression)
    (empty : s.expression.pending = {}) : ¬ s.expression.lexicon.Dangling s.cursor := by
  rw [Ready, hc] at h
  exact h empty

theorem Ready.bracket (h : s.Ready) (hc : s.context = .bracket) :
    s.cursor.rest ≠ [] ∨ s.bracket.Closing := by
  rw [Ready, hc] at h
  exact h

theorem Ready.subexpression (h : s.Ready) (hc : s.context = .subexpression) :
    s.cursor.rest ≠ [] := by
  rw [Ready, hc] at h
  exact h

theorem after_bracket (kind : TokenKind) :
    kind = .rBracket ∨ Context.after .bracket kind = .bracket ∨
      Context.after .bracket kind = .subexpression := by
  cases kind <;> simp [Context.after]

theorem read_within (hpost : Boundary s.expression.lexicon post)
    (hsize : s.bracket.ahead.size ≤ 1) (hs : s.read = .ok (some (t, s')))
    (hk : t.kind ≠ .trailingEscape) (hready : s.Ready) (hnext : s'.Ready) :
    (s.within pre post).read = .ok (some (t, s'.within pre post)) := by
  obtain ⟨u, hread, hnesting, rfl⟩ := read_eq_some_iff.mp hs
  have hcontext : (s.within pre post).readInContext = .ok (some (t, u.within pre post)) := by
    rw [readInContext_eq_some_iff] at hread ⊢
    cases hread with
    | expression context h =>
      refine .expression context (ExpressionReader.read_within hpost h hk fun hstring empty => ?_)
      have hfree := hnext.expression (by simp [context, hstring, Context.after]) empty
      rwa [ExpressionReader.lexicon_of_read h] at hfree
    | bracket context h =>
      refine .bracket context (BracketReader.read_within hpost.digit hsize h ?_)
      rcases after_bracket t.kind with hk | hk | hk
      · exact .inr (.inl hk)
      · exact (hnext.bracket (by rw [← hk, ← context])).imp_right .inr
      · exact .inl (hnext.subexpression (by rw [← hk, ← context]))
    | group context h =>
      exact .group context (Lexicon.read_within hpost.digit (Lexicon.group_not_dangling h) h)
    | element context group h =>
      refine .element context
        (Lexicon.group_read_none hpost.opener (hready.subexpression context) group)
        (ExpressionReader.read_within hpost h hk fun hstring empty => ?_)
      have hfree := hnext.expression (by simp [context, hstring, Context.after]) empty
      rwa [ExpressionReader.lexicon_of_read h] at hfree
  exact read_eq_some_iff.mpr ⟨u.within pre post, hcontext, hnesting, rfl⟩

end TokenReader

namespace ExpressionReader

variable {r r' : ExpressionReader} {c c' : Cursor} {t : Token}

/-- Only what belongs to a run or to a repetition is known ahead. -/
def Known (r : ExpressionReader) : Prop :=
  ∀ t ∈ r.pending.items, t.kind = .literal ∨ t.kind = .repUpper

theorem known_of_read (h : r.read c = .ok (some (t, r', c'))) (hr : r.Known) :
    r'.Known ∧ (r'.pending = {} ∨ ∀ s, s ≠ .bracket → Context.after s t.kind = .expression) := by
  have hafter {kind : TokenKind} (hk : kind = .literal ∨ kind = .stringLiteral ∨
      kind = .repLower ∨ kind = .repUpper) {s : Context} (hs : s ≠ .bracket) :
      s.after kind = .expression := by
    rcases hk with rfl | rfl | rfl | rfl <;> cases s <;> first | rfl | contradiction
  cases read_eq_some_iff.mp h with
  | known hp =>
    have hitems := Queue.pop_eq_some_iff.mp hp
    rw [Known, hitems] at hr
    refine ⟨fun u hu => hr u (List.mem_cons_of_mem _ hu), .inr fun s hs => hafter ?_ hs⟩
    rcases hr t List.mem_cons_self with hk | hk <;> simp [hk]
  | single empty | whole empty | sign empty => exact ⟨hr, .inl empty⟩
  | cut empty =>
    refine ⟨?_, .inr fun s hs => hafter (.inr (.inl rfl)) hs⟩
    simp [Known, Queue.push, empty, Token.ofChar]
  | repetition empty =>
    refine ⟨?_, .inr fun s hs => hafter (.inr (.inr (.inl rfl))) hs⟩
    simp [Known, Queue.push, empty, Token.ofCount]

end ExpressionReader

namespace BracketReader

variable {d : Dialect} {r r' : BracketReader} {c c' : Cursor} {t : Token}

theorem size_of_read (h : r.read d c = .ok (some (t, r', c'))) (hsize : r.ahead.size ≤ 1) :
    r'.ahead.size ≤ 1 := by
  cases read_eq_some_iff.mp h with
  | plain raw | lastDash raw =>
    dsimp only
    rw [ahead_of_raw raw hsize]
    exact Nat.zero_le 1
  | dash raw | literalDash raw =>
    dsimp only
    rw [ahead_of_raw raw hsize]
    exact Nat.le_refl 1

/-- A bracket that is closed leaves the reader as it was. -/
theorem eq_start_of_close (h : r.read d c = .ok (some (t, r', c'))) (hsize : r.ahead.size ≤ 1)
    (hk : t.kind = .rBracket) : r' = {} := by
  cases read_eq_some_iff.mp h with
  | plain raw =>
    rw [ahead_of_raw raw hsize]
    simp [BracketPlace.after, hk]
  | lastDash raw kind | dash raw kind =>
    rw [Token.hasKind, hk] at kind
    cases kind
  | literalDash => cases hk

end BracketReader

/-- The reader is where the parser expects it to be, and holds nothing back that belongs elsewhere.
-/
structure Agrees (d : Dialect) (ignoreCase : Bool) (s : TokenReader) (p : Parser) : Prop where
  dialect : s.expression.dialect = d
  ignoreCase : s.expression.ignoreCase = ignoreCase
  returned : s.returned = {}
  error : s.error = none
  context : s.context = p.expecting.context
  nesting : s.nesting = ⟨p.outer.length⟩
  known : s.expression.Known
  pending : s.context ≠ .expression → s.expression.pending = {}
  bracket : s.context ≠ .bracket → s.bracket = {}
  ahead : s.bracket.ahead.size ≤ 1

variable {d : Dialect} {ignoreCase : Bool} {s s' : TokenReader} {p p' : Parser} {t : Token}

theorem agrees_start (text : List Char) : Agrees d ignoreCase (.start d ignoreCase text) {} :=
  ⟨rfl, rfl, rfl, rfl, rfl, rfl, List.forall_mem_nil _, fun _ => rfl, fun _ => rfl, Nat.zero_le 1⟩

theorem Agrees.step (h : Agrees d ignoreCase s p) (hs : s.read = .ok (some (t, s')))
    (take : p.Takes t p') : Agrees d ignoreCase s' p' := by
  obtain ⟨u, hread, -, rfl⟩ := TokenReader.read_eq_some_iff.mp hs
  have hcontext : s.context.after t.kind = p'.expecting.context := by
    rw [h.context, take.context_after]
  have hnesting : s.nesting.after t.kind = ⟨p'.outer.length⟩ := by
    rw [h.nesting, take.depth_after]
  cases TokenReader.readInContext_eq_some_iff.mp hread with
  | expression context hr | element context _ hr =>
    have hne : s.context ≠ .bracket := by simp [context]
    obtain ⟨hdialect, hignore⟩ := ExpressionReader.same_of_read hr
    obtain ⟨hknown, hpending⟩ := ExpressionReader.known_of_read hr h.known
    refine ⟨hdialect.trans h.dialect, hignore.trans h.ignoreCase, h.returned, h.error, hcontext,
      hnesting, hknown, fun hc => ?_, fun _ => h.bracket hne, h.ahead⟩
    exact hpending.resolve_right fun hafter => hc (hafter _ hne)
  | bracket context hr =>
    have hpending := h.pending (by simp [context])
    refine ⟨h.dialect, h.ignoreCase, h.returned, h.error, hcontext, hnesting, h.known,
      fun _ => hpending, fun hc => ?_, BracketReader.size_of_read hr h.ahead⟩
    apply BracketReader.eq_start_of_close hr h.ahead
    have hclose := take.in_bracket (h.context ▸ context)
    exact hclose.resolve_right fun hp => hc (hcontext.trans hp)
  | group context hr =>
    exact ⟨h.dialect, h.ignoreCase, h.returned, h.error, hcontext, hnesting, h.known,
      fun _ => h.pending (by simp [context]), fun _ => h.bracket (by simp [context]), h.ahead⟩

namespace ExpressionReader

variable {r r' : ExpressionReader} {c c' : Cursor} {t : Token}

theorem read_of_rest_nil (empty : r.pending = {}) (hrest : c.rest = []) : r.read c = .ok none := by
  have hread : (Lexicon.expression r.dialect r.ignoreCase).read c = .ok none :=
    Lexicon.read_of_rest_nil hrest
  simp only [read, Queue.pop_eq_none_iff.mpr empty, hread, bind, Except.bind]
  rfl

theorem kind_of_read_dangling (empty : r.pending = {}) (hd : r.lexicon.Dangling c)
    (h : r.read c = .ok (some (t, r', c'))) : t.kind = .trailingEscape := by
  cases read_eq_some_iff.mp h with
  | known hp =>
    rw [Queue.pop_eq_none_iff.mpr empty] at hp
    cases hp
  | single _ first literal | cut _ first literal | whole _ first literal =>
    rw [Token.hasKind, kind_of_dangling hd first] at literal
    cases literal
  | sign _ first => exact kind_of_dangling hd first
  | repetition _ first _ bounds =>
    rw [bounds?, kind_of_dangling hd first] at bounds
    cases bounds

end ExpressionReader

namespace BracketReader

variable {r r' : BracketReader} {c c' : Cursor}

/-- At the end of the text only known tokens are left, and none of these closes the bracket. -/
theorem read_at_end (h : r.read d c = .ok (some (t, r', c'))) (hrest : c.rest = [])
    (hr : ¬ r.Closing) : t.kind ≠ .rBracket ∧ c'.rest = [] ∧ ¬ r'.Closing := by
  have hraw {u : Token} {ahead : Queue Token} {e : Cursor}
      (raw : r.raw d c = .ok (some (u, ahead, e))) :
      u.kind ≠ .rBracket ∧ e.rest = [] ∧ ∀ v ∈ ahead.items, v.kind ≠ .rBracket := by
    rcases raw_eq_some_iff.mp raw with ⟨hitems, rfl⟩ | ⟨-, -, hread⟩
    · have hall : ∀ v ∈ u :: ahead.items, v.kind ≠ .rBracket :=
        fun v hv hk => hr ⟨v, hitems ▸ hv, hk⟩
      obtain ⟨hu, hahead⟩ := List.forall_mem_cons.mp hall
      exact ⟨hu, hrest, hahead⟩
    · rw [Lexicon.read_of_rest_nil hrest] at hread
      cases hread
  have hmeaning {u : Token} (hu : u.kind ≠ .rBracket) : (r.place.meaning u).kind ≠ .rBracket := by
    unfold BracketPlace.meaning
    split <;> simp_all [Token.ofChar]
  cases read_eq_some_iff.mp h with
  | plain raw | lastDash raw =>
    obtain ⟨hu, hend, hahead⟩ := hraw raw
    exact ⟨hmeaning hu, hend, fun ⟨v, hv, hk⟩ => hahead v hv hk⟩
  | dash raw _ next | literalDash raw _ next =>
    rw [Lexicon.read_of_rest_nil (hraw raw).2.1] at next
    cases next

end BracketReader

variable {g : Grammar} {pattern : Pattern}

theorem not_spells_of_bracket (h : Spells g s p pattern) (ha : Agrees d ignoreCase s p)
    (hc : s.context = .bracket) (hrest : s.cursor.rest = []) (hs : ¬ s.bracket.Closing) :
    False := by
  induction h with
  | done _ finish =>
    obtain ⟨he, -⟩ := Parser.finish_eq_ok_iff.mp finish
    rw [ha.context, he] at hc
    cases hc
  | step hread take _ ih =>
    have take := Parser.takes_of_step take
    have hnext := ha.step hread take
    obtain ⟨u, hu, -, rfl⟩ := TokenReader.read_eq_some_iff.mp hread
    cases TokenReader.readInContext_eq_some_iff.mp hu with
    | bracket _ hr =>
      obtain ⟨hk, hrest, hs⟩ := BracketReader.read_at_end hr hrest hs
      have hcontext := (take.in_bracket (ha.context ▸ hc)).resolve_left hk
      exact ih hnext (hnext.context.trans hcontext) hrest hs
    | expression context | group context | element context =>
      rw [hc] at context
      cases context

theorem TokenReader.expression_read_none (hc : s.context = .expression) (h : s.read = .ok none) :
    s.expression.read s.cursor = .ok none := by
  obtain ⟨_ | ⟨u, s'⟩, hr, h⟩ := bind_eq_ok.1 h
  · rw [readInContext, hc] at hr
    obtain ⟨_ | ⟨u, r, c⟩, hr, h⟩ := bind_eq_ok.1 hr
    · exact hr
    · cases h
  · dsimp only at h
    split at h <;> cases h

theorem not_spells_of_dangling (h : Spells g s p pattern) (hc : s.context = .expression)
    (empty : s.expression.pending = {}) (hd : s.expression.lexicon.Dangling s.cursor) : False := by
  cases h with
  | done hread =>
    have hrest := (ExpressionReader.rest_of_read_none (s.expression_read_none hc hread)).2
    obtain ⟨x, hx, -⟩ := hd
    rw [hrest] at hx
    cases hx
  | step hread take =>
    obtain ⟨u, hu, -, rfl⟩ := TokenReader.read_eq_some_iff.mp hread
    cases TokenReader.readInContext_eq_some_iff.mp hu with
    | expression _ hr =>
      exact (Parser.takes_of_step take).kind_ne (ExpressionReader.kind_of_read_dangling empty hd hr)
    | bracket context | group context | element context =>
      rw [hc] at context
      cases context

theorem not_spells_of_open (h : Spells g s p pattern) (ha : Agrees d ignoreCase s p)
    (hc : s.context = .subexpression) (hrest : s.cursor.rest = []) : False := by
  have hnone : s.expression.read s.cursor = .ok none :=
    ExpressionReader.read_of_rest_nil (ha.pending (by simp [hc])) hrest
  cases h with
  | done _ finish =>
    obtain ⟨he, -⟩ := Parser.finish_eq_ok_iff.mp finish
    rw [ha.context, he] at hc
    cases hc
  | step hread =>
    obtain ⟨u, hu, -, rfl⟩ := TokenReader.read_eq_some_iff.mp hread
    cases TokenReader.readInContext_eq_some_iff.mp hu with
    | group _ hr =>
      rw [Lexicon.read_of_rest_nil hrest] at hr
      cases hr
    | element _ _ hr =>
      rw [hnone] at hr
      cases hr
    | expression context | bracket context =>
      rw [hc] at context
      cases context

theorem ready_of_spells (h : Spells g s p pattern) (ha : Agrees d ignoreCase s p) : s.Ready := by
  unfold TokenReader.Ready
  cases context : s.context with
  | expression => exact fun empty hd => not_spells_of_dangling h context empty hd
  | bracket =>
    by_contra hno
    rw [not_or, not_not] at hno
    exact not_spells_of_bracket h ha context hno.1 hno.2
  | subexpression => exact fun hrest => not_spells_of_open h ha context hrest

/-- The reader that holds nothing back, at some place. -/
def TokenReader.fresh (d : Dialect) (ignoreCase : Bool) (c : Cursor) : TokenReader where
  cursor := c
  expression := { dialect := d, ignoreCase := ignoreCase }

theorem TokenReader.ofPattern_ofList (flags : Flags) (text : List Char) :
    ofPattern flags (String.ofList text) =
      fresh (.ofFlags flags) (flags.contains .icase) ⟨[], text⟩ := by
  rw [ofPattern, String.toList_ofList]
  rfl

theorem Agrees.eq_fresh (ha : Agrees d ignoreCase s p) (hread : s.read = .ok none)
    (finish : p.finish = .ok pattern) :
    s = .fresh d ignoreCase s.cursor ∧ s.cursor.rest = [] := by
  obtain ⟨he, houter, -⟩ := Parser.finish_eq_ok_iff.mp finish
  have hcontext : s.context = .expression := by rw [ha.context, he]; rfl
  obtain ⟨hpending, hrest⟩ := ExpressionReader.rest_of_read_none
    (s.expression_read_none hcontext hread)
  refine ⟨?_, hrest⟩
  have hnesting := ha.nesting
  rw [houter] at hnesting
  have hexpression : s.expression = { dialect := d, ignoreCase := ignoreCase } := by
    rw [← ha.dialect, ← ha.ignoreCase, ← hpending]
  have hbracket := ha.bracket (by simp [hcontext])
  have hreturned := ha.returned
  have herror := ha.error
  obtain ⟨c, context, nesting, expression, bracket, returned, error⟩ := s
  dsimp only at *
  subst hcontext hnesting hexpression hbracket hreturned herror
  rfl

/-- A pattern that can be compiled alone is also read where more text stands around it, up to the
text that follows, and the reader is then as it was at the start. -/
theorem Spells.readsTo_within (h : Spells g s p pattern) (ha : Agrees d ignoreCase s p)
    {post : List Char} (hpost : Boundary (.expression d ignoreCase) post) (pre : List Char) :
    ∃ before, (s.within pre post).ReadsTo s.tokens (.fresh d ignoreCase ⟨before, post⟩) := by
  induction h with
  | @done s p _ hread finish =>
    obtain ⟨hs, hrest⟩ := ha.eq_fresh hread finish
    have htokens : s.tokens = [] := by rw [TokenReader.tokens, TokenReader.stream_of_end hread]; rfl
    have hwithin : s.within pre post = .fresh d ignoreCase ⟨s.cursor.before ++ pre, post⟩ := by
      rw [hs, TokenReader.within, TokenReader.fresh, Cursor.within, hrest]
      rfl
    rw [htokens, hwithin]
    exact ⟨_, .refl _⟩
  | @step s s' p p' t _ hread take later ih =>
    have htakes := Parser.takes_of_step take
    have hnext := ha.step hread htakes
    have hlexicon : s.expression.lexicon = .expression d ignoreCase := by
      rw [ExpressionReader.lexicon, ha.dialect, ha.ignoreCase]
    have hstep : (s.within pre post).read = .ok (some (t, s'.within pre post)) :=
      TokenReader.read_within (hlexicon ▸ hpost) ha.ahead hread
        htakes.kind_ne (ready_of_spells (.step hread take later) ha) (ready_of_spells later hnext)
    obtain ⟨before, hreads⟩ := ih hnext
    rw [TokenReader.tokens_of_token hread]
    exact ⟨before, .step hstep hreads⟩

theorem Spells.reaches_within (h : Spells g s p pattern) (ha : Agrees d ignoreCase s p)
    {post : List Char} (hpost : Boundary (.expression d ignoreCase) post) (pre : List Char) :
    ∃ before p', Reaches g (s.within pre post) p (.fresh d ignoreCase ⟨before, post⟩) p' ∧
      p'.finish = .ok pattern := by
  obtain ⟨p', take, -, finish⟩ := spells_iff_takeAll.mp h
  obtain ⟨before, hreads⟩ := h.readsTo_within ha hpost pre
  exact ⟨before, p', .of_readsTo hreads take, finish⟩

end IncrementalRegex
