import EditionCheck.Report

/-!
# Reports as JSON

A report as one JSON object on one line. A path that is no text cannot be written: the text then ends
where that path would stand.

Main statements: `noLineFeed_jsonString` — a quoted text has no line feed —, `json_complete` — the object
is complete if all paths are texts.
-/

set_option autoImplicit false

namespace EditionCheck.Report

open EditionCheck.Files

/-- A hexadecimal digit. -/
def hexDigit (n : Nat) : Char := if n < 10 then Char.ofNat (48 + n) else Char.ofNat (87 + n)

/-- A character inside a JSON string. -/
def jsonChar (c : Char) : List Char :=
  if c = '\x22' || c = '\\' then ['\\', c]
  else if c = '\x08' then ['\\', 'b']
  else if c = '\x0c' then ['\\', 'f']
  else if c = '\n' then ['\\', 'n']
  else if c = '\r' then ['\\', 'r']
  else if c = '\t' then ['\\', 't']
  else if c.toNat < 32 then
    ['\\', 'u', '0', '0', hexDigit (c.toNat / 16), hexDigit (c.toNat % 16)]
  else [c]

/-- A text as a JSON string. -/
def jsonString (cs : List Char) : List Char := '\x22' :: (cs.flatMap jsonChar ++ ['\x22'])

/-- A text that may end early. -/
structure Written where
  text : List Char
  complete : Bool
  deriving DecidableEq, Repr

/-- What is written behind a text. -/
def Written.behind (start : List Char) (w : Written) : Written := ⟨start ++ w.text, w.complete⟩

/-- The paths of an array behind its first bracket, with the end of the object. `first` says that no
path stands before. -/
def jsonPaths (first : Bool) : List Path → Written
  | [] => ⟨[']', '\x7d', '\n'], true⟩
  | path :: rest =>
    Written.behind (if first then [] else [',']) <|
      match path.text? with
      | none => ⟨[], false⟩
      | some text => (jsonPaths false rest).behind (jsonString text)

/-- A report as a line of JSON. -/
def json (r : Report) : Written :=
  (jsonPaths true r.failures).behind <|
    "\x7b\x22grammar\x22:\x22".toList ++ r.grammar.digit.toList
      ++ "\x22,\x22checked\x22:".toList ++ Nat.toDigits 10 r.checked
      ++ ",\x22failures\x22:[".toList

theorem complete_jsonPaths (first : Bool) (paths : List Path) :
    (jsonPaths first paths).complete = paths.all fun p => p.text?.isSome := by
  induction paths generalizing first with
  | nil => rfl
  | cons p ps ih => cases h : p.text? <;> simp [jsonPaths, Written.behind, h, ih]

theorem json_complete (r : Report) :
    r.json.complete = r.failures.all fun p => p.text?.isSome :=
  complete_jsonPaths true r.failures

theorem hexDigit_ne_lineFeed {n : Nat} (h : n < 16) : hexDigit n ≠ '\n' := by
  have all : ∀ k : Fin 16, hexDigit k ≠ '\n' := by decide
  exact all ⟨n, h⟩

theorem noLineFeed_jsonChar (c : Char) : '\n' ∉ jsonChar c := by
  unfold jsonChar
  split
  · next h =>
    simp only [Bool.or_eq_true, decide_eq_true_eq] at h
    rcases h with rfl | rfl <;> decide
  · repeat' split
    · decide
    · decide
    · decide
    · decide
    · decide
    · next h =>
      have h1 := hexDigit_ne_lineFeed (n := c.toNat / 16) (by omega)
      have h2 := hexDigit_ne_lineFeed (n := c.toNat % 16) (by omega)
      simp [Ne.symm h1, Ne.symm h2]
    · next _ _ _ hn _ _ _ =>
      intro h
      exact hn (List.mem_singleton.1 h).symm

theorem noLineFeed_jsonString (cs : List Char) : '\n' ∉ jsonString cs := by
  simp [jsonString, noLineFeed_jsonChar]

end EditionCheck.Report
