import EditionCheck.Proofs.Json
import EditionCheck.Proofs.Printing

/-!
# Reading a report back

A report whose failures are texts is printed as one line of JSON, from which it can be read back.

* `readString_jsonString` — a quoted text is read back, whatever its characters are;
* `readNumber_toDigits` — so is a count;
* `spells_json` — what is written for a report spells the object with its version, its count and its
  failures in order, and nothing else;
* `json_report_read_back` — the end of a run prints this as one line, which no other report shares.
-/

set_option autoImplicit false

namespace EditionCheck

open EditionCheck.Files EditionCheck.Json EditionCheck.Report

/-! ## Strings -/

theorem hexValue?_hexDigit {n : Nat} (h : n < 16) : hexValue? (hexDigit n) = some n := by
  have all : ∀ k : Fin 16, hexValue? (hexDigit k) = some k.val := by decide
  exact all ⟨n, h⟩

/-- A control character is read back from its code unit. -/
theorem codeUnit?_hexDigit {n : Nat} (h : n < 32) :
    codeUnit? '0' '0' (hexDigit (n / 16)) (hexDigit (n % 16)) = some n := by
  have hzero : hexValue? '0' = some 0 := by decide
  have hhigh := hexValue?_hexDigit (n := n / 16) (by omega)
  have hlow := hexValue?_hexDigit (n := n % 16) (by omega)
  simp only [codeUnit?, hzero, hhigh, hlow, Option.bind_eq_bind, Option.bind_some, Option.pure_def,
    Option.some.injEq]
  omega

/-- A character is read back from what stands for it in a string. -/
theorem readString_jsonChar (c : Char) (rest : List Char) :
    readString (jsonChar c ++ rest) = (readString rest).map (withChar c) := by
  unfold jsonChar
  split
  · next h =>
    simp only [Bool.or_eq_true, decide_eq_true_eq] at h
    rcases h with rfl | rfl <;> rfl
  next hquoted =>
  -- five control characters have an escape of their own
  iterate 5
    split
    · next h => subst h; rfl
  split
  · next h =>
    have hunit := codeUnit?_hexDigit h
    have hhigh : isHighHalf c.toNat = false := by simp [isHighHalf]; omega
    have hlow : isLowHalf c.toNat = false := by simp [isLowHalf]; omega
    simp [readString, hunit, hhigh, hlow, Char.ofNat_toNat]
  · next h =>
    simp only [Bool.or_eq_true, decide_eq_true_eq, not_or] at hquoted
    simp [readString, hquoted, h]

theorem readString_jsonString (cs t : List Char) :
    readString (cs.flatMap jsonChar ++ '\x22' :: t) = some (cs, t) := by
  induction cs with
  | nil => simp [readString]
  | cons c cs ih =>
    rw [List.flatMap_cons, List.append_assoc, readString_jsonChar, ih]
    rfl

theorem skipSpace_jsonString (cs t : List Char) :
    skipSpace (jsonString cs ++ t) = jsonString cs ++ t :=
  skipSpace_cons (by decide) _

theorem readsValue_string (cs t : List Char) : ReadsValue (jsonString cs ++ t) (.string cs) t := by
  have hread := readString_jsonString cs t
  rw [jsonString, List.cons_append, List.append_assoc]
  exact .string hread

/-! ## Numbers -/

/-- The digits of a number that is not zero start with another digit. -/
theorem head?_toDigits_ne {n : Nat} (h : 0 < n) : (Nat.toDigits 10 n).head? ≠ some '0' := by
  induction n using Nat.strongRecOn with
  | _ n ih =>
    rw [Nat.toDigits_eq_if (by decide)]
    split
    · next hn =>
      have all : ∀ k : Fin 10, 0 < k.val → [Nat.digitChar k.val].head? ≠ some '0' := by decide
      exact all ⟨n, hn⟩ h
    · next hn =>
      have hfront := ih (n / 10) (by omega) (by omega)
      cases hds : Nat.toDigits 10 (n / 10) with
      | nil => exact absurd hds Nat.toDigits_ne_nil
      | cons d ds => simpa [hds] using hfront

theorem isWhole_toDigits (n : Nat) : isWhole (Nat.toDigits 10 n) = true := by
  by_cases h : n = 0
  · subst h
    rfl
  · have hhead := head?_toDigits_ne (Nat.pos_of_ne_zero h)
    simp [isWhole, Nat.toDigits_ne_nil, hhead]

theorem isDigit_of_mem_digits {n : Nat} {c : Char} (h : c ∈ Nat.toDigits 10 n) : c.isDigit = true :=
  Nat.isDigit_of_mem_toDigits (by decide) (by decide) h

/-- A count in front of a comma is read back. -/
theorem readNumber_toDigits (n : Nat) (t : List Char) :
    readNumber (Nat.toDigits 10 n ++ ',' :: t) = some (⟨n, 0⟩, ',' :: t) := by
  have hdigits : ∀ c ∈ Nat.toDigits 10 n, c.isDigit = true := fun c => isDigit_of_mem_digits
  have hcomma : (',').isDigit = false := rfl
  have htake : (Nat.toDigits 10 n ++ ',' :: t).takeWhile Char.isDigit = Nat.toDigits 10 n := by
    rw [List.takeWhile_append_of_pos hdigits]
    simp [hcomma]
  have hdrop : (Nat.toDigits 10 n ++ ',' :: t).dropWhile Char.isDigit = ',' :: t := by
    rw [List.dropWhile_append_of_pos hdigits]
    simp [hcomma]
  have hunsigned : readUnsigned (Nat.toDigits 10 n ++ ',' :: t) = some (⟨n, 0⟩, ',' :: t) := by
    simp [readUnsigned, htake, hdrop, isWhole_toDigits, readFraction, readExponent,
      Nat.ofDigitChars_ten_toDigits]
  rw [← hunsigned]
  unfold readNumber
  split
  · next s hs =>
    -- no digit is a sign
    have hsign := hdigits '-'
    cases hn : Nat.toDigits 10 n with
    | nil => exact absurd hn Nat.toDigits_ne_nil
    | cons d ds =>
      rw [hn, List.cons_append] at hs
      cases hs
      rw [hn] at hsign
      exact absurd (hsign List.mem_cons_self) (by decide)
  · rfl

theorem isSpace_of_isDigit {c : Char} (h : c.isDigit = true) : isSpace c = false := by
  have hne : ∀ d : Char, d.isDigit = false → c ≠ d := by
    rintro d hd rfl
    simp [hd] at h
  simp [isSpace, hne ' ' rfl, hne '\t' rfl, hne '\n' rfl, hne '\r' rfl]

theorem readsValue_toDigits (n : Nat) (t : List Char) :
    ReadsValue (skipSpace (Nat.toDigits 10 n ++ ',' :: t)) (.number ⟨n, 0⟩) (',' :: t) := by
  have hread := readNumber_toDigits n t
  have hskip : skipSpace (Nat.toDigits 10 n ++ ',' :: t) = Nat.toDigits 10 n ++ ',' :: t := by
    cases hn : Nat.toDigits 10 n with
    | nil => exact absurd hn Nat.toDigits_ne_nil
    | cons d ds =>
      have hd : d ∈ Nat.toDigits 10 n := hn ▸ List.mem_cons_self
      exact skipSpace_cons (isSpace_of_isDigit (isDigit_of_mem_digits hd)) _
  rw [hskip]
  exact .number hread

/-! ## Reports -/

/-- The object that stands for a report on failures at texts. -/
def reportValue (grammar : Grammar) (checked : Nat) (paths : List (List Char)) : Value :=
  .object [("grammar".toList, .string grammar.digit.toList),
    ("checked".toList, .number ⟨checked, 0⟩),
    ("failures".toList, .array (paths.map .string))]

/-- What is written for paths spells an array of them, in front of the end of the object. -/
theorem readsItems_jsonPaths (first : Bool) (paths : List (List Char)) :
    ReadsItems first (jsonPaths first (paths.map .text)).text (paths.map .string) ['\x7d', '\n'] := by
  induction paths generalizing first with
  | nil => exact .done rfl
  | cons path paths ih =>
    have hread := readsValue_string path (jsonPaths false (paths.map .text)).text
    rw [← skipSpace_jsonString] at hread
    refine .next ?_ hread (ih false)
    cases first with
    | true => exact congrArg some (skipSpace_jsonString path _)
    | false => rfl

/-- A member of an object, which a comma divides from the one in front of it. -/
def jsonMember (first : Bool) (key value : List Char) : List Char :=
  (if first then [] else [',']) ++ (jsonString key ++ ':' :: value)

/-- The name of a member is read back. -/
theorem readKey_jsonString (key t : List Char) :
    readKey (jsonString key ++ ':' :: t) = some (key, t) := by
  have hcolon : skipSpace (':' :: t) = ':' :: t := skipSpace_cons (by decide) t
  rw [jsonString, List.cons_append, List.append_assoc]
  simp [readKey, readString_jsonString, hcolon]

/-- A member is read back in front of what follows it. -/
theorem readsMembers_jsonMember (first : Bool) (key : List Char) {s u t : List Char} {v : Value}
    {members : List (List Char × Value)} (hvalue : ReadsValue (skipSpace s) v u)
    (hmore : ReadsMembers false u members t) :
    ReadsMembers first (jsonMember first key s) ((key, v) :: members) t := by
  have hkey := readKey_jsonString key s
  rw [← skipSpace_jsonString] at hkey
  refine .next ?_ hkey hvalue hmore
  cases first with
  | true => exact congrArg some (skipSpace_jsonString key _)
  | false => rfl

theorem text_behind (start : List Char) (w : Written) : (w.behind start).text = start ++ w.text := rfl

/-- A report is written as an object with three members. -/
theorem text_json (r : Report) :
    r.json.text = '\x7b' :: jsonMember true "grammar".toList (jsonString r.grammar.digit.toList
      ++ jsonMember false "checked".toList (Nat.toDigits 10 r.checked
      ++ jsonMember false "failures".toList ('[' :: (jsonPaths true r.failures).text))) := by
  have hdigit : jsonString r.grammar.digit.toList = '\x22' :: (r.grammar.digit.toList ++ ['\x22']) := by
    cases r.grammar <;> decide
  have hgrammar : jsonString "grammar".toList = "\x22grammar\x22".toList := by decide
  have hchecked : jsonString "checked".toList = "\x22checked\x22".toList := by decide
  have hfailures : jsonString "failures".toList = "\x22failures\x22".toList := by decide
  simp only [jsonMember, hdigit, hgrammar, hchecked, hfailures]
  rw [json, text_behind]
  generalize r.grammar.digit.toList = digit
  generalize (jsonPaths true r.failures).text = paths
  generalize Nat.toDigits 10 r.checked = count
  simp [String.reduceToList]

/-- **What is written for a report on failures at texts is one value**: the object with its version, its
count, and its failures in order. -/
theorem spells_json (grammar : Grammar) (checked : Nat) (paths : List (List Char)) (v : Value) :
    Spells (json ⟨grammar, checked, paths.map .text⟩).text v ↔ v = reportValue grammar checked paths := by
  have hspells : Spells (json ⟨grammar, checked, paths.map .text⟩).text
      (reportValue grammar checked paths) := by
    have hclosed : ReadsMembers false ['\x7d', '\n'] [] ['\n'] := .done rfl
    have hfailures : ReadsMembers false
        (jsonMember false "failures".toList ('[' :: (jsonPaths true (paths.map .text)).text))
        [("failures".toList, .array (paths.map .string))] ['\n'] :=
      readsMembers_jsonMember _ _ (.array (readsItems_jsonPaths true paths)) hclosed
    have hchecked := readsMembers_jsonMember false "checked".toList (readsValue_toDigits checked _)
      hfailures
    have hdigit := readsValue_string grammar.digit.toList (jsonMember false "checked".toList
      (Nat.toDigits 10 checked
        ++ jsonMember false "failures".toList ('[' :: (jsonPaths true (paths.map .text)).text)))
    rw [← skipSpace_jsonString] at hdigit
    have hmembers := readsMembers_jsonMember true "grammar".toList hdigit hchecked
    refine ⟨['\n'], ?_, rfl⟩
    rw [text_json]
    exact .object hmembers
  constructor
  · exact fun h => h.unique hspells
  · rintro rfl
    exact hspells

/-- The objects of different reports differ. -/
theorem reportValue_injective {grammar grammar' : Grammar} {checked checked' : Nat}
    {paths paths' : List (List Char)}
    (h : reportValue grammar checked paths = reportValue grammar' checked' paths') :
    grammar = grammar' ∧ checked = checked' ∧ paths = paths' := by
  have hdigits : ∀ g g' : Grammar, g.digit.toList = g'.digit.toList → g = g' := by
    intro g g'
    cases g <;> cases g' <;> decide
  simp only [reportValue, Value.object.injEq, List.cons.injEq, Prod.mk.injEq, Value.string.injEq,
    Value.number.injEq, Value.array.injEq, Decimal.mk.injEq, and_true, true_and] at h
  obtain ⟨hgrammar, hchecked, hpaths⟩ := h
  have hsame : paths = paths' := (List.map_inj_right fun _ _ => Value.string.inj).1 hpaths
  exact ⟨hdigits _ _ hgrammar, Int.ofNat.inj hchecked, hsame⟩

/-! ## Lines -/

/-- What is written for paths ends the line, and does not break it before. -/
theorem line_of_jsonPaths (first : Bool) (paths : List (List Char)) :
    ∃ line, (jsonPaths first (paths.map .text)).text = line ++ ['\n'] ∧ '\n' ∉ line := by
  induction paths generalizing first with
  | nil => exact ⟨[']', '\x7d'], rfl, by decide⟩
  | cons path paths ih =>
    obtain ⟨line, hline, hbreak⟩ := ih false
    refine ⟨(if first then [] else [',']) ++ (jsonString path ++ line), ?_, ?_⟩
    · simp [jsonPaths, Path.text?, text_behind, hline]
    · cases first <;> simp [noLineFeed_jsonString, hbreak]

theorem noLineFeed_jsonMember (first : Bool) (key : List Char) {value : List Char} :
    '\n' ∈ jsonMember first key value ↔ '\n' ∈ value := by
  cases first <;> simp [jsonMember, noLineFeed_jsonString]

/-- A report is written as one line. -/
theorem line_of_json (grammar : Grammar) (checked : Nat) (paths : List (List Char)) :
    ∃ line, (json ⟨grammar, checked, paths.map .text⟩).text = line ++ ['\n'] ∧ '\n' ∉ line := by
  obtain ⟨line, hline, hbreak⟩ := line_of_jsonPaths true paths
  have hcount : '\n' ∉ Nat.toDigits 10 checked := by
    intro h
    exact absurd (isDigit_of_mem_digits h) (by decide)
  refine ⟨'\x7b' :: jsonMember true "grammar".toList (jsonString grammar.digit.toList
      ++ jsonMember false "checked".toList (Nat.toDigits 10 checked
      ++ jsonMember false "failures".toList ('[' :: line))), ?_, ?_⟩
  · rw [text_json, hline]
    simp [jsonMember]
  · simp [noLineFeed_jsonMember, noLineFeed_jsonString, hcount, hbreak]

theorem complete_of_texts (grammar : Grammar) (checked : Nat) (paths : List (List Char)) :
    (json ⟨grammar, checked, paths.map .text⟩).complete = true := by
  rw [json_complete, List.all_map]
  exact List.all_eq_true.2 fun _ _ => rfl

/-! ## The end of a run -/

/-- What the end of a run prints for a report on failures at texts, however files were reported. -/
theorem printed_finished_json (style : Style) (h : style.options.format = .json) (grammar : Grammar)
    (checked : Nat) (paths : List (List Char)) :
    style.printed (.finished ⟨grammar, checked, paths.map .text⟩)
      = ⟨[(.out, String.ofList (json ⟨grammar, checked, paths.map .text⟩).text)], none⟩ := by
  simp [Style.printed, h, Style.jsonSummary, complete_of_texts]

/-- **A report in JSON can be read back.** The end of a run puts one line behind what the output holds,
and nothing on the error output. In the grammar of JSON, this line spells the object with the version, the
count and the paths of the failures in their order, and no other value. So reports that are printed as
the same text are equal. -/
theorem json_report_read_back (verbose color escapes : Bool) (out err : String) (grammar : Grammar)
    (checked : Nat) (paths : List (List Char)) :
    let finish (verbose color escapes : Bool) (report : Report) :=
      runFrom (Style.reporter ⟨⟨verbose, .json, color⟩, escapes⟩ Streams.write (.finished report))
        { out, err }
    let report : Report := ⟨grammar, checked, paths.map .text⟩
    ∃ line : List Char,
      finish verbose color escapes report
          = (.ok (), { out := out ++ String.ofList (line ++ ['\n']), err })
      ∧ '\n' ∉ line
      ∧ (∀ v, Spells (line ++ ['\n']) v ↔ v = reportValue grammar checked paths)
      ∧ ∀ (verbose' color' escapes' : Bool) (grammar' : Grammar) (checked' : Nat)
          (paths' : List (List Char)), let other : Report := ⟨grammar', checked', paths'.map .text⟩
          (finish verbose' color' escapes' other).2.out = (finish verbose color escapes report).2.out →
            other = report := by
  intro finish report
  have hfinish (v c e : Bool) (g : Grammar) (n : Nat) (ps : List (List Char)) :
      finish v c e ⟨g, n, ps.map .text⟩
        = (.ok (), { out := out ++ String.ofList (json ⟨g, n, ps.map .text⟩).text, err }) := by
    have hprinted := printed_finished_json ⟨⟨v, .json, c⟩, e⟩ rfl g n ps
    have hreporter := reporter_of_writesTo writesTo_write (congrArg Printed.fault hprinted)
      (s := { out, err }) rfl
    rw [hprinted] at hreporter
    simpa [Streams.print, textOn] using hreporter
  obtain ⟨line, hline, hbreak⟩ := line_of_json grammar checked paths
  refine ⟨line, ?_, hbreak, ?_, ?_⟩
  · rw [← hline]
    exact hfinish verbose color escapes grammar checked paths
  · intro v
    rw [← hline]
    exact spells_json grammar checked paths v
  · intro v c e g n ps other hout
    rw [hfinish v c e g n ps, hfinish verbose color escapes grammar checked paths] at hout
    have htext : (json other).text = (json report).text :=
      String.ofList_injective (by simpa using hout)
    have hspells := (spells_json g n ps (reportValue g n ps)).2 rfl
    rw [htext, spells_json] at hspells
    obtain ⟨rfl, rfl, rfl⟩ := reportValue_injective hspells
    rfl

end EditionCheck
