import EditionCheck.Files.Path

/-!
# File patterns

A pattern is a path whose names may hold wildcards: `?` for any character, `*` for any run of
characters, `[…]` and `[!…]` for a character that is or is not listed, and the name `**` for any number
of directories. A wildcard never stands for a dot at the start of a name, though a run may stand for
nothing in front of one, and it matches no name that is not a text.

Main statements: `Component.matches_literal` — a name without wildcards matches itself only —,
`head?_of_matches_dot` — a name that starts with a dot is matched only where the pattern spells that dot
behind its leading runs.
-/

set_option autoImplicit false

namespace EditionCheck.Glob

open EditionCheck.Files EditionCheck.Text

/-! ## Wildcards -/

/-- A member of a character list: a character, or all between two. -/
inductive Member where
  | one (c : Char)
  | range (first last : Char)
  deriving DecidableEq, Repr

/-- Whether a character belongs to a member of a list. -/
def Member.holds (c : Char) : Member → Bool
  | one d => c == d
  | range first last => decide (first ≤ c) && decide (c ≤ last)

/-- A piece of a pattern. -/
inductive Wildcard where
  | char (c : Char)
  | anyChar
  | anyRun
  | within (members : List Member)
  | except (members : List Member)
  deriving DecidableEq, Repr

/-- Whether a piece stands for a character that does not start a name with a dot. -/
def Wildcard.holds (c : Char) : Wildcard → Bool
  | char d => c == d
  | anyChar => true
  | anyRun => true
  | within members => members.any (Member.holds c)
  | except members => !members.any (Member.holds c)

/-! ## Reading patterns -/

/-- Why a text is no pattern. -/
inductive Mistake where
  /-- More than two stars in a row. -/
  | tooManyStars
  /-- Two stars that are not a whole name. -/
  | starsInName
  /-- A character list without end. -/
  | openList
  deriving DecidableEq, Repr

/-- A mistake and its position, which counts characters. -/
structure PatternError where
  position : Nat
  mistake : Mistake
  deriving DecidableEq, Repr

/-- The wording of a mistake. -/
def Mistake.message : Mistake → String
  | tooManyStars => "wildcards are either regular \x60*\x60 or recursive \x60**\x60"
  | starsInName => "recursive wildcards must form a single path component"
  | openList => "invalid range pattern"

/-- The wording of an error in a pattern. -/
def PatternError.message (e : PatternError) : String :=
  "Pattern syntax error near position " ++ toString e.position ++ ": " ++ e.mistake.message

/-- The members of a character list. A dash between two characters makes a range of them. -/
def members : List Char → List Member
  | a :: '-' :: b :: rest => .range a b :: members rest
  | a :: rest => .one a :: members rest
  | [] => []

/-- The text in front of the first closing bracket, and the text behind it. The first `skip` characters
are not taken for that bracket. -/
def untilBracket : Nat → List Char → Option (List Char × List Char)
  | _, [] => none
  | 0, c :: rest =>
    if c = ']' then some ([], rest)
    else (untilBracket 0 rest).map fun p => (c :: p.1, p.2)
  | skip + 1, c :: rest => (untilBracket skip rest).map fun p => (c :: p.1, p.2)

theorem length_untilBracket {skip : Nat} {cs inner rest : List Char}
    (h : untilBracket skip cs = some (inner, rest)) : inner.length + rest.length + 1 = cs.length := by
  fun_induction untilBracket skip cs generalizing inner rest with
  | case1 => simp at h
  | case2 =>
    simp only [Option.some.injEq, Prod.mk.injEq] at h
    obtain ⟨rfl, rfl⟩ := h
    simp
  | case3 c cs _ ih =>
    obtain ⟨p, hp, he⟩ := Option.map_eq_some_iff.1 h
    simp only [Prod.mk.injEq] at he
    obtain ⟨rfl, rfl⟩ := he
    have := ih hp
    simp only [List.length_cons]
    omega
  | case4 c cs _ ih =>
    obtain ⟨p, hp, he⟩ := Option.map_eq_some_iff.1 h
    simp only [Prod.mk.injEq] at he
    obtain ⟨rfl, rfl⟩ := he
    have := ih hp
    simp only [List.length_cons]
    omega

/-- A character list behind its opening bracket, with what follows it. The list holds a character at
least, so a closing bracket may be its first member. -/
def readList (cs : List Char) : Option (Wildcard × List Char) :=
  match cs with
  | '!' :: rest => (untilBracket 1 rest).map fun p => (.except (members p.1), p.2)
  | _ => (untilBracket 1 cs).map fun p => (.within (members p.1), p.2)

theorem length_readList {cs rest : List Char} {w : Wildcard} (h : readList cs = some (w, rest)) :
    rest.length < cs.length := by
  unfold readList at h
  split at h
  · obtain ⟨⟨inner, more⟩, hp, he⟩ := Option.map_eq_some_iff.1 h
    have hlen := length_untilBracket hp
    simp only [Prod.mk.injEq] at he
    obtain ⟨-, rfl⟩ := he
    simp only [List.length_cons]
    omega
  · obtain ⟨⟨inner, more⟩, hp, he⟩ := Option.map_eq_some_iff.1 h
    have hlen := length_untilBracket hp
    simp only [Prod.mk.injEq] at he
    obtain ⟨-, rfl⟩ := he
    omega

/-- The pieces of a pattern. `position` counts the characters read before, and `fresh` says that a name
starts here. Two stars are a piece only if they are a whole name. -/
def pieces (position : Nat) (fresh : Bool) (cs : List Char) : Except PatternError (List Wildcard) :=
  match cs with
  | [] => .ok []
  | '?' :: rest => (Wildcard.anyChar :: ·) <$> pieces (position + 1) false rest
  | '*' :: '*' :: '*' :: _ => .error ⟨position + 2, .tooManyStars⟩
  | '*' :: '*' :: rest =>
    if fresh then
      match rest with
      | [] => .ok [.anyRun]
      | '/' :: more => (Wildcard.anyRun :: ·) <$> pieces (position + 3) true more
      | _ :: _ => .error ⟨position + 2, .starsInName⟩
    else .error ⟨position - 1, .starsInName⟩
  | '*' :: rest => (Wildcard.anyRun :: ·) <$> pieces (position + 1) false rest
  | '[' :: rest =>
    match h : readList rest with
    | none => .error ⟨position, .openList⟩
    | some (w, more) => (w :: ·) <$> pieces (position + 1 + (rest.length - more.length)) false more
  | c :: rest => (Wildcard.char c :: ·) <$> pieces (position + 1) (c == '/') rest
termination_by cs.length
decreasing_by
  all_goals first
    | exact Nat.lt_succ_of_lt (length_readList h)
    | (simp_wf; try omega)

/-! ## Names in patterns -/

/-- A name in a pattern. -/
inductive Component where
  | literal (name : List UInt8)
  | wild (pieces : List Wildcard)
  /-- The name `**`. -/
  | recursive
  deriving DecidableEq, Repr

/-- The text of pieces without wildcards. -/
def literal? : List Wildcard → Option (List Char)
  | [] => some []
  | .char c :: rest => (literal? rest).map (c :: ·)
  | _ :: _ => none

/-- The name in a pattern that a text spells. -/
def Component.ofChars (cs : List Char) : Except PatternError Component :=
  if cs = ['*', '*'] then .ok .recursive
  else do
    let ws ← pieces 0 true cs
    match literal? ws with
    | some name => .ok (.literal (Utf8.encode name))
    | none => .ok (.wild ws)

/-- How a match of pieces ends. -/
inductive MatchEnd where
  | found
  | mismatch
  /-- The name ended before the pieces did, so no shorter rest of it can match. -/
  | runOut
  deriving DecidableEq, Repr

mutual

/-- Matches pieces against the rest of a name; `fresh` says that it is the whole name. -/
def matchPieces (fresh : Bool) : List Wildcard → List Char → MatchEnd
  | [], [] => .found
  | [], _ :: _ => .mismatch
  | .anyRun :: ws, cs => matchRun fresh ws cs
  | _ :: _, [] => .runOut
  | w :: ws, c :: cs =>
    if fresh && c == '.' && w != .char '.' then .mismatch
    else if w.holds c then matchPieces false ws cs
    else .mismatch
termination_by ws cs => (ws.length, cs.length, 0)

/-- Matches a run of characters, as short as possible, and then pieces. -/
def matchRun (fresh : Bool) (ws : List Wildcard) : List Char → MatchEnd
  | [] => matchPieces fresh ws []
  | c :: cs =>
    match matchPieces fresh ws (c :: cs) with
    | .mismatch => if fresh && c == '.' then .mismatch else matchRun false ws cs
    | done => done
termination_by cs => (ws.length, cs.length, 1)

end

/-- Whether a name in a pattern matches a name. -/
def Component.matches (name : List UInt8) : Component → Bool
  | literal n => name == n
  | wild ws => (Utf8.decode? name).any fun cs => matchPieces true ws cs == .found
  | recursive => true

/-- Whether a name in a pattern starts with a dot. -/
def Component.startsWithDot : Component → Bool
  | literal n => n.head? == some dot
  | wild ws => ws.head? == some (.char '.')
  | recursive => false

/-! ## Whole patterns -/

/-- A pattern of paths. -/
structure Pattern where
  absolute : Bool
  components : List Component
  /-- Whether only directories are meant. -/
  directoriesOnly : Bool
  deriving DecidableEq, Repr

/-- The names of a path without the empty one that a slash at its end leaves. -/
def namesWithin (cs : List Char) : List (List Char) :=
  let ns := cs.splitOn '/'
  if ns.getLast? = some [] then ns.dropLast else ns

/-- The pattern that a text spells. The text is checked as a whole before its names are. -/
def Pattern.ofChars (cs : List Char) : Except PatternError Pattern := do
  let _ ← pieces 0 true cs
  let absolute := cs.head? == some '/'
  let inner := if absolute then cs.drop 1 else cs
  let components ← (namesWithin inner).mapM Component.ofChars
  .ok {
    absolute
    components := if inner = [] then components ++ [.literal []] else components
    directoriesOnly := cs.getLast? == some '/' }

/-! ## What matches -/

theorem Component.matches_literal {n name : List UInt8} :
    (Component.literal n).matches name = true ↔ name = n := by
  simp [Component.matches]

theorem Component.matches_wild {ws : List Wildcard} {name : List UInt8} :
    (Component.wild ws).matches name = true ↔
      ∃ cs, name = Utf8.encode cs ∧ matchPieces true ws cs = .found := by
  simp [Component.matches, Option.any_eq_true, Utf8.decode?_eq_some_iff_encode]

theorem matchRun_dot {ws : List Wildcard} {cs : List Char} (h : matchRun true ws ('.' :: cs) = .found) :
    matchPieces true ws ('.' :: cs) = .found := by
  rw [matchRun] at h
  split at h
  · simp at h
  · exact h

theorem head?_of_matches_dot {ws : List Wildcard} {cs : List Char}
    (h : matchPieces true ws ('.' :: cs) = .found) :
    (ws.dropWhile (· == .anyRun)).head? = some (.char '.') := by
  induction ws with
  | nil => simp [matchPieces] at h
  | cons w ws ih =>
    by_cases hw : w = .anyRun
    · subst hw
      rw [matchPieces] at h
      simpa using ih (matchRun_dot h)
    · rw [matchPieces] at h
      · split at h
        · simp at h
        · next hd =>
          have hdot : w = .char '.' := by simpa using hd
          simp [hdot]
      · exact hw

end EditionCheck.Glob
