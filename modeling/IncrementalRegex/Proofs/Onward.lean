import IncrementalRegex.Proofs.Within

namespace IncrementalRegex

namespace Cursor

/-- The second place is some characters on in the text of the first. -/
def Onward (c c' : Cursor) : Prop := ∃ n, c' = c.advance n

variable {c c' c'' : Cursor}

theorem advance_advance (c : Cursor) (m n : Nat) : (c.advance m).advance n = c.advance (m + n) := by
  obtain ⟨before, rest⟩ := c
  simp only [advance, List.drop_drop, List.take_add, List.reverse_append, List.append_assoc]

theorem position_advance (c : Cursor) (n : Nat) :
    (c.advance n).position + (c.advance n).remaining = c.position + c.remaining := by
  simp only [advance, position, remaining, List.length_append, List.length_reverse,
    List.length_take, List.length_drop]
  omega

theorem Onward.refl (c : Cursor) : c.Onward c := ⟨0, rfl⟩

theorem Onward.trans (h : c.Onward c') (h' : c'.Onward c'') : c.Onward c'' := by
  obtain ⟨m, rfl⟩ := h
  obtain ⟨n, rfl⟩ := h'
  exact ⟨m + n, advance_advance c m n⟩

theorem onward_advance (c : Cursor) (n : Nat) : c.Onward (c.advance n) := ⟨n, rfl⟩

theorem onward_next {x : Char} (h : c.next? = some (x, c')) : c.Onward c' := by
  obtain ⟨before, rest⟩ := c
  cases rest <;> cases h
  exact ⟨1, rfl⟩

theorem onward_digits {n radix v : Nat} (h : c.digits? n radix = some (v, c')) : c.Onward c' := by
  unfold digits? at h
  dsimp only at h
  split at h <;> cases h
  exact onward_advance c n

theorem onward_through (c : Cursor) (delimiter : List Char) :
    c.Onward (c.through delimiter).2.2 := by
  unfold through
  split <;> exact onward_advance ..

/-- What has been read and what is left make up the text. -/
theorem Onward.length (h : c.Onward c') :
    c'.position + c'.remaining = c.position + c.remaining := by
  obtain ⟨n, rfl⟩ := h
  exact position_advance c n

end Cursor

open Cursor

variable {d : Dialect} {c c' : Cursor} {t : Token}

namespace Lexicon

variable {l : Lexicon}

theorem onward_tokenOf {kind : TokenKind} {x : Char} (h : l.tokenOf kind x c = .ok (t, c')) :
    c.Onward c' := by
  cases tokenOf_eq_ok_iff.mp h with
  | simpleBackRef | noHex | noUnicode | controlChar | literal | itself => exact .refl _
  | compoundBackRef number | count number =>
    cases number
    exact onward_advance ..
  | hex digits | unicode digits => exact onward_digits digits
  | control next => exact onward_next next
  | named _ closed =>
    have honward := onward_through c [x, ']']
    rwa [closed] at honward

theorem onward_read (h : l.read c = .ok (some (t, c'))) : c.Onward c' := by
  cases read_eq_some_iff.mp h with
  | pair next escape token =>
    obtain ⟨_, -, follower, -⟩ := escape_eq_some_iff.mp escape
    exact (onward_next next).trans ((onward_next follower).trans (onward_tokenOf token))
  | alone next _ _ token => exact (onward_next next).trans (onward_tokenOf token)

end Lexicon

namespace Brace

theorem onward_next (h : next d c = .ok (t, c')) : c.Onward c' := by
  obtain ⟨_ | p, hread, h⟩ := bind_eq_ok.1 h <;> cases h
  exact Lexicon.onward_read hread

theorem onward_read {b : Bounds} (h : read d c = .ok (some (b, c'))) : c.Onward c' := by
  cases read_eq_some_iff.mp h with
  | exactly count _ close => exact (onward_next count).trans (onward_next close)
  | atLeast lower _ comma _ close =>
    exact (onward_next lower).trans ((onward_next comma).trans (onward_next close))
  | between lower _ comma _ upper _ close =>
    exact (onward_next lower).trans ((onward_next comma).trans
      ((onward_next upper).trans (onward_next close)))

end Brace

namespace ExpressionReader

variable {r r' : ExpressionReader}

theorem onward_ordinaryRun {l : Lexicon} {run : List Char} {repeated : Bool}
    (h : ordinaryRun l c = .ok (run, repeated, c')) : c.Onward c' := by
  fun_induction ordinaryRun l c generalizing run repeated c' with
  | case1 | case3 => cases h
  | case2 | case5 => cases h; exact .refl _
  | case4 c t next hread _ _ _ _ hlater ih =>
    cases h
    exact (Lexicon.onward_read hread).trans (ih hlater)

theorem onward_bounds {b : Bounds} (h : bounds? d t c = .ok (some (b, c'))) : c.Onward c' := by
  cases bounds_eq_ok_iff.mp h with
  | sign => exact .refl _
  | brace _ read => exact Brace.onward_read read

theorem onward_read (h : r.read c = .ok (some (t, r', c'))) : c.Onward c' := by
  cases read_eq_some_iff.mp h with
  | known => exact .refl _
  | single _ first _ later | cut _ first _ later | whole _ first _ later =>
    exact (Lexicon.onward_read first).trans (onward_ordinaryRun later)
  | sign _ first => exact Lexicon.onward_read first
  | repetition _ first _ bounds => exact (Lexicon.onward_read first).trans (onward_bounds bounds)

end ExpressionReader

namespace BracketReader

variable {r r' : BracketReader}

theorem onward_raw {ahead : Queue Token} (h : r.raw d c = .ok (some (t, ahead, c'))) :
    c.Onward c' := by
  rcases raw_eq_some_iff.mp h with ⟨-, rfl⟩ | ⟨-, -, hread⟩
  · exact .refl _
  · exact Lexicon.onward_read hread

theorem onward_read (h : r.read d c = .ok (some (t, r', c'))) : c.Onward c' := by
  cases read_eq_some_iff.mp h with
  | plain raw | lastDash raw => exact onward_raw raw
  | dash raw _ next | literalDash raw _ next =>
    exact (onward_raw raw).trans (Lexicon.onward_read next)

end BracketReader

namespace TokenReader

variable {s s' : TokenReader}

theorem onward_readInContext (h : s.readInContext = .ok (some (t, s'))) :
    s.cursor.Onward s'.cursor := by
  cases readInContext_eq_some_iff.mp h with
  | expression _ hr | element _ _ hr => exact ExpressionReader.onward_read hr
  | bracket _ hr => exact BracketReader.onward_read hr
  | group _ hr => exact Lexicon.onward_read hr

theorem onward_read (h : s.read = .ok (some (t, s'))) : s.cursor.Onward s'.cursor := by
  obtain ⟨u, hread, -, rfl⟩ := read_eq_some_iff.mp h
  have honward := onward_readInContext hread
  exact honward

end TokenReader
end IncrementalRegex
