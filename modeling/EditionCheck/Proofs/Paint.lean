import EditionCheck.Proofs.NoEscape
import EditionCheck.Proofs.Printing

/-!
# Colour in reports

A reporter that may use colour prints the same as one that may not, but for the escape sequences that switch
a style on and off. They can be dropped from what is printed, since nothing else in it holds the escape
character.

* `dropSequences` — a text without its escape sequences for styles;
* `Fades`, `PiecesFade` — what becomes of a text, and of pieces, when they are dropped, whatever follows;
* `fades_paint`, `Style.FadesTo.printed` — a painted text, and what a notice prints, fade to what is plain;
* `run_tellAll` — what a reporter makes of some notices, one call behind the other;
* `color_adds_sequences` — the outputs with colour and without it.
-/

set_option autoImplicit false

namespace EditionCheck

open EditionCheck.Files EditionCheck.Settings

/-! ## Escape sequences -/

/-- Whether a character may stand among the numbers of an escape sequence. -/
def isParameter (c : Char) : Bool := c.isDigit || c == ';'

/-- The length of the escape sequence for a style that stands at the start of a text, or `0`. -/
def sequenceLength : List Char → Nat
  | '\x1b' :: '[' :: rest =>
    let numbers := rest.takeWhile isParameter
    if (rest.drop numbers.length).head? == some 'm' then numbers.length + 3 else 0
  | _ => 0

/-- A text without its escape sequences for styles, where its first characters belong to a sequence that
starts in front of it. -/
def dropSequencesBehind : Nat → List Char → List Char
  | _, [] => []
  | n + 1, _ :: cs => dropSequencesBehind n cs
  | 0, c :: cs =>
    match sequenceLength (c :: cs) with
    | 0 => c :: dropSequencesBehind 0 cs
    | n + 1 => dropSequencesBehind n cs

/-- A text without its escape sequences for styles. -/
def dropSequences (cs : List Char) : List Char := dropSequencesBehind 0 cs

theorem sequenceLength_of_ne {c : Char} (h : c ≠ '\x1b') (cs : List Char) :
    sequenceLength (c :: cs) = 0 := by
  unfold sequenceLength
  split
  · next heq => exact absurd (List.cons.inj heq).1 h
  · rfl

theorem sequenceLength_sequence {numbers : List Char} (h : numbers.all isParameter) (rest : List Char) :
    sequenceLength ('\x1b' :: '[' :: (numbers ++ 'm' :: rest)) = numbers.length + 3 := by
  have htake : (numbers ++ 'm' :: rest).takeWhile isParameter = numbers := by
    rw [List.takeWhile_append_of_pos (List.all_eq_true.1 h), List.takeWhile_cons_of_neg (by decide),
      List.append_nil]
  simp [sequenceLength, htake]

theorem dropSequencesBehind_append (a b : List Char) :
    dropSequencesBehind a.length (a ++ b) = dropSequences b := by
  induction a with
  | nil => rfl
  | cons c a ih => exact ih

/-! ## Texts that fade -/

/-- Without its escape sequences a text is another one, whatever follows it. -/
def Fades (a b : List Char) : Prop := ∀ rest, dropSequences (a ++ rest) = b ++ dropSequences rest

section

variable {a b a' b' : List Char}

theorem Fades.dropSequences_eq (h : Fades a b) : dropSequences a = b := by
  have hall := h []
  rwa [List.append_nil, show dropSequences [] = [] from rfl, List.append_nil] at hall

theorem Fades.append (h : Fades a b) (h' : Fades a' b') : Fades (a ++ a') (b ++ b') := by
  intro rest
  rw [List.append_assoc, h, h', List.append_assoc]

/-- A text without escape characters stays what it is. -/
theorem fades_of_noEscape (h : NoEscape a) : Fades a a := by
  intro rest
  induction a with
  | nil => rfl
  | cons c a ih =>
    obtain ⟨hc, ha⟩ := noEscape_cons.1 h
    have hlength := sequenceLength_of_ne hc (a ++ rest)
    rw [dropSequences, List.cons_append, dropSequencesBehind, hlength]
    exact congrArg (c :: ·) (ih ha)

/-- An escape sequence is dropped as a whole. -/
theorem fades_sequence (numbers : List Char) (h : numbers.all isParameter) :
    Fades ('\x1b' :: '[' :: (numbers ++ ['m'])) [] := by
  intro rest
  have hlength := sequenceLength_sequence h rest
  have hcount : ('[' :: (numbers ++ ['m'])).length = numbers.length + 2 := by simp
  have hdropped := dropSequencesBehind_append ('[' :: (numbers ++ ['m'])) rest
  rw [hcount, List.cons_append, List.append_assoc, List.singleton_append] at hdropped
  rw [dropSequences, List.cons_append, List.cons_append, List.append_assoc, List.singleton_append,
    dropSequencesBehind, hlength]
  exact hdropped

/-- **A painted text fades to the text.** -/
theorem fades_paint (color : Color) {text : String} (h : NoEscape text.toList) :
    Fades (color.paint true text).toList text.toList := by
  have hon : Fades ("\x1b[1;" ++ color.code ++ "m").toList [] := by
    cases color with
    | green => exact fades_sequence "1;32".toList (by decide)
    | red => exact fades_sequence "1;31".toList (by decide)
  have hoff : Fades "\x1b[0m".toList [] := fades_sequence "0".toList (by decide)
  have hall := (hon.append (fades_of_noEscape h)).append hoff
  rw [List.nil_append, List.append_nil, ← String.toList_append, ← String.toList_append] at hall
  rwa [Color.paint, if_pos rfl]

example : dropSequences "\x1b[1;31mecma-v:\x1b[0m [m".toList = "ecma-v: [m".toList := by decide

/-- A text that fades can have others around it. -/
theorem Fades.between {a b front back : String} (h : Fades a.toList b.toList)
    (hfront : NoEscape front.toList) (hback : NoEscape back.toList) :
    Fades (front ++ (a ++ back)).toList (front ++ (b ++ back)).toList := by
  simp only [String.toList_append]
  exact (fades_of_noEscape hfront).append (h.append (fades_of_noEscape hback))

theorem Fades.followed {a b back : String} (h : Fades a.toList b.toList) (hback : NoEscape back.toList) :
    Fades (a ++ back).toList (b ++ back).toList := by
  simp only [String.toList_append]
  exact h.append (fades_of_noEscape hback)

end

/-! ## Pieces that fade -/

/-- Without their escape sequences some pieces put on each channel what others do. -/
def PiecesFade (ps qs : List (Channel × String)) : Prop :=
  ∀ channel, Fades (textOn channel ps).toList (textOn channel qs).toList

theorem piecesFade_nil : PiecesFade [] [] := fun _ => fades_of_noEscape noEscape_nil

theorem PiecesFade.append {ps qs ps' qs' : List (Channel × String)} (h : PiecesFade ps qs)
    (h' : PiecesFade ps' qs') : PiecesFade (ps ++ ps') (qs ++ qs') := by
  intro channel
  rw [textOn_append, textOn_append, String.toList_append, String.toList_append]
  exact (h channel).append (h' channel)

theorem piecesFade_line {line plain : String} (channel : Channel) (h : Fades line.toList plain.toList) :
    PiecesFade [(channel, line)] [(channel, plain)] := by
  intro other
  by_cases hother : channel = other
  · simpa [textOn, hother] using h
  · simpa [textOn, hother] using fades_of_noEscape noEscape_nil

theorem piecesFade_flatMap {α : Type} {xs : List α} {f g : α → List (Channel × String)}
    (h : ∀ x ∈ xs, PiecesFade (f x) (g x)) : PiecesFade (xs.flatMap f) (xs.flatMap g) := by
  induction xs with
  | nil => exact piecesFade_nil
  | cons x xs ih =>
    obtain ⟨hx, hxs⟩ := List.forall_mem_cons.1 h
    exact hx.append (ih hxs)

theorem noEscape_textOn {pieces : List (Channel × String)} (h : ∀ piece ∈ pieces, NoEscape piece.2.toList)
    (channel : Channel) : NoEscape (textOn channel pieces).toList := by
  simp only [textOn, String.toList_join, noEscape_flatMap, List.forall_mem_map]
  exact fun piece hpiece => h piece (List.mem_filter.1 hpiece).1

/-! ## Styles that fade -/

/-- A style prints what another one does, but for escape sequences in its headings. -/
structure Style.FadesTo (s p : Style) : Prop where
  format : s.options.format = p.options.format
  verbose : s.options.verbose = p.options.verbose
  heading : ∀ color, Fades (s.heading color).toList (p.heading color).toList

namespace Style.FadesTo

variable {s p : Style} {path : Path}

theorem passedLine (h : s.FadesTo p) (hpath : NoEscape path.shown) (grammar : Grammar) :
    Fades (s.passedLine path grammar).toList (p.passedLine path grammar).toList := by
  simp only [Style.passedLine, String.append_assoc]
  exact (h.heading .green).between (by decide) (by simp [hpath])

theorem failedLine (h : s.FadesTo p) (hpath : NoEscape path.shown) (grammar : Grammar) :
    Fades (s.failedLine path grammar).toList (p.failedLine path grammar).toList := by
  simp only [Style.failedLine, String.append_assoc]
  exact (h.heading .red).followed (by simp [hpath])

theorem successLine (h : s.FadesTo p) : Fades s.successLine.toList p.successLine.toList :=
  (h.heading .green).followed (by decide)

theorem summaryLine (h : s.FadesTo p) (count : Nat) :
    Fades (s.summaryLine count).toList (p.summaryLine count).toList := by
  simp only [Style.summaryLine, String.append_assoc]
  exact (h.heading .red).followed (by simp)

theorem summaryPathLine (h : s.FadesTo p) (hpath : NoEscape path.shown) :
    Fades (s.summaryPathLine path).toList (p.summaryPathLine path).toList := by
  simp only [Style.summaryPathLine, String.append_assoc]
  exact (h.heading .red).between (by decide) (by simp [hpath])

theorem textSummary (h : s.FadesTo p) {r : Report} (hpaths : ∀ path ∈ r.failures, NoEscape path.shown) :
    PiecesFade (s.textSummary r) (p.textSummary r) := by
  unfold Style.textSummary
  split
  · exact piecesFade_line .out h.successLine
  · have hlines : PiecesFade (r.failures.flatMap fun path => [(.err, s.summaryPathLine path)])
        (r.failures.flatMap fun path => [(.err, p.summaryPathLine path)]) :=
      piecesFade_flatMap fun path hpath => piecesFade_line .err (h.summaryPathLine (hpaths path hpath))
    simp only [← List.map_eq_flatMap] at hlines
    exact (piecesFade_line .err (h.summaryLine _)).append hlines

/-- **What a notice prints fades**, and the notice ends in the same way. -/
theorem printed (h : s.FadesTo p) {n : Notice} (hn : n.Shown) :
    PiecesFade (s.printed n).pieces (p.printed n).pieces ∧ (s.printed n).fault = (p.printed n).fault := by
  unfold Style.printed
  rw [h.format, h.verbose]
  cases p.options.format with
  | json =>
    cases n with
    | passed => exact ⟨piecesFade_nil, rfl⟩
    | failed => exact ⟨piecesFade_nil, rfl⟩
    | finished report =>
      have hjson : NoEscape (String.ofList report.json.text).toList := by simpa using noEscape_json report
      exact ⟨piecesFade_line .out (fades_of_noEscape hjson), rfl⟩
  | text =>
    cases n with
    | passed path grammar =>
      refine ⟨?_, rfl⟩
      cases p.options.verbose with
      | false => exact piecesFade_nil
      | true => exact piecesFade_line .out (h.passedLine hn grammar)
    | failed path grammar => exact ⟨piecesFade_line .err (h.failedLine hn grammar), rfl⟩
    | finished report => exact ⟨h.textSummary hn, rfl⟩

theorem pieces (h : s.FadesTo p) {notices : List Notice} (hn : ∀ n ∈ notices, n.Shown) :
    PiecesFade (s.pieces notices) (p.pieces notices) :=
  piecesFade_flatMap fun n hmem => (h.printed (hn n hmem)).1

end Style.FadesTo

/-! ## Styles that print the same -/

namespace Style

variable {s p : Style}

/-- What a notice prints depends on the headings, not on how they have come about. -/
theorem printed_congr (hformat : s.options.format = p.options.format)
    (hverbose : s.options.verbose = p.options.verbose) (hheading : s.heading = p.heading) (n : Notice) :
    s.printed n = p.printed n := by
  simp only [printed, passedLine, failedLine, textSummary, successLine, summaryLine, summaryPathLine,
    hformat, hverbose, hheading]

/-- In JSON format, nothing that is printed depends on the style. -/
theorem printed_json_congr (hs : s.options.format = .json) (hp : p.options.format = .json) (n : Notice) :
    s.printed n = p.printed n := by
  cases n <;> simp only [printed, hs, hp]

theorem heading_of_plain (hs : (s.options.color && s.escapes) = false)
    (hp : (p.options.color && p.escapes) = false) : s.heading = p.heading := by
  funext color
  rw [heading, heading, hs, hp]

/-- Colour and no colour, where escape sequences may be sent. -/
theorem fadesTo_of_color (verbose : Bool) (format : Format) :
    FadesTo ⟨{ verbose, format, color := true }, true⟩ ⟨{ verbose, format, color := false }, false⟩ where
  format := rfl
  verbose := rfl
  heading color := fades_paint color (by decide)

/-! ## Calls on a reporter -/

/-- Tells a reporter some notices, each of them whether or not those in front of it could be told, and gives
how each call ends. -/
def tellAll (s : Style) (notices : List Notice) : StateM Streams (List (Except Obstacle Unit)) :=
  notices.mapM fun n => (s.reporter Streams.write n).run

/-- Where the streams take everything, the calls print the pieces of their notices. -/
theorem run_tellAll (s : Style) (notices : List Notice) {streams : Streams}
    (hstreams : streams.refusal = fun _ => none) :
    (s.tellAll notices).run streams
      = (notices.map fun n => endingWith .output (s.printed n).fault,
          streams.print (s.pieces notices)) := by
  induction notices generalizing streams with
  | nil =>
    rw [pieces, List.flatMap_nil, Streams.print_nil]
    rfl
  | cons n notices ih =>
    have hcall : (s.reporter Streams.write n).run.run streams
        = (endingWith Obstacle.output (s.printed n).fault, streams.print (s.printed n).pieces) :=
      reporter_printing writesTo_write s n hstreams
    have hsplit : s.pieces (n :: notices) = (s.printed n).pieces ++ s.pieces notices := rfl
    have hrest := ih (show (streams.print (s.printed n).pieces).refusal = fun _ => none from hstreams)
    rw [tellAll, List.mapM_cons, StateT.run_bind, hcall, hsplit, Streams.print_append, List.map_cons]
    exact congrArg (fun r => (endingWith Obstacle.output (s.printed n).fault :: r.1, r.2)) hrest

/-- Styles in which each notice prints the same make the same of all calls. -/
theorem run_tellAll_congr {s p : Style} (h : ∀ n, s.printed n = p.printed n) (notices : List Notice) :
    (s.tellAll notices).run {} = (p.tellAll notices).run {} := by
  rw [run_tellAll s notices rfl, run_tellAll p notices rfl]
  simp only [pieces, h]

end Style

/-- **Colour adds escape sequences and nothing else.** Where the streams take everything, calls on a
reporter leave the same on them in every style, unless colour is asked for and escape sequences may be sent.
Where both is so, the calls end in the same way, and what they leave without its escape sequences is what
they leave without colour, in which there is no escape character if the paths hold none. In JSON format,
there is never one, and colour changes nothing. -/
theorem color_adds_sequences (verbose : Bool) (format : Format) (notices : List Notice) :
    let style (color escapes : Bool) : Style := ⟨{ verbose, format, color }, escapes⟩
    let told (color escapes : Bool) := ((style color escapes).tellAll notices).run {}
    (∀ color escapes, (color && escapes) = false → told color escapes = told false false)
    ∧ ((∀ n ∈ notices, n.Shown) →
        NoEscape (told false false).2.out.toList ∧ NoEscape (told false false).2.err.toList
        ∧ (told true true).1 = (told false false).1
        ∧ dropSequences (told true true).2.out.toList = (told false false).2.out.toList
        ∧ dropSequences (told true true).2.err.toList = (told false false).2.err.toList)
    ∧ (format = .json → ∀ color escapes, told color escapes = told false false
        ∧ NoEscape (told color escapes).2.out.toList ∧ NoEscape (told color escapes).2.err.toList) := by
  intro style told
  have htold (color escapes : Bool) : told color escapes = _ := Style.run_tellAll _ notices rfl
  have hout (ps : List (Channel × String)) : (Streams.print {} ps).out = textOn .out ps :=
    String.empty_append
  have herr (ps : List (Channel × String)) : (Streams.print {} ps).err = textOn .err ps :=
    String.empty_append
  refine ⟨fun color escapes hoff => ?_, fun hshown => ?_, fun hjson color escapes => ?_⟩
  · have hheading : (style color escapes).heading = (style false false).heading :=
      Style.heading_of_plain hoff rfl
    have hprinted (n : Notice) : (style color escapes).printed n = (style false false).printed n :=
      Style.printed_congr (s := style color escapes) (p := style false false) rfl rfl hheading n
    exact Style.run_tellAll_congr hprinted notices
  · have hfades := Style.fadesTo_of_color verbose format
    have hpieces := hfades.pieces hshown
    have hplain : ∀ piece ∈ (style false false).pieces notices, NoEscape piece.2.toList := by
      intro piece hpiece
      obtain ⟨n, hn, hpiece⟩ := List.mem_flatMap.1 hpiece
      exact (noEscape_printed rfl (hshown n hn)).1 piece hpiece
    simp only [htold, hout, herr]
    refine ⟨noEscape_textOn hplain .out, noEscape_textOn hplain .err, ?_, ?_, ?_⟩
    · refine List.map_congr_left fun n hn => ?_
      rw [(hfades.printed (hshown n hn)).2]
    · exact (hpieces .out).dropSequences_eq
    · exact (hpieces .err).dropSequences_eq
  · have hprinted (n : Notice) : (style color escapes).printed n = (style false false).printed n :=
      Style.printed_json_congr hjson hjson n
    have hsame : told color escapes = told false false := Style.run_tellAll_congr hprinted notices
    have hquoted : ∀ piece ∈ (style color escapes).pieces notices, NoEscape piece.2.toList := by
      intro piece hpiece
      obtain ⟨n, -, hpiece⟩ := List.mem_flatMap.1 hpiece
      exact noEscape_printed_json hjson n piece hpiece
    refine ⟨hsame, ?_⟩
    simp only [htold, hout, herr]
    exact ⟨noEscape_textOn hquoted .out, noEscape_textOn hquoted .err⟩

/-- The calls for a file that passes and one that fails. -/
def twoFiles : List Notice :=
  [.passed (.text "a.js".toList) .v5, .failed (.text "b.js".toList) .v5,
    .finished ⟨.v5, 2, [.text "b.js".toList]⟩]

/-- Escape sequences are sent to both streams, and dropping them leaves what is printed without colour. -/
theorem color_adds_sequences_two_files :
    let style (color : Bool) : Style := ⟨{ verbose := true, color }, color⟩
    let told (color : Bool) := ((style color).tellAll twoFiles).run {}
    (∀ n ∈ twoFiles, n.Shown)
      ∧ (told true).2.out ≠ (told false).2.out ∧ (told true).2.err ≠ (told false).2.err
      ∧ dropSequences (told true).2.out.toList = (told false).2.out.toList
      ∧ dropSequences (told true).2.err.toList = (told false).2.err.toList := by
  intro style told
  have hshown : ∀ n ∈ twoFiles, n.Shown := by
    unfold twoFiles
    simp [Notice.Shown, Path.shown]
  obtain ⟨-, htext, -⟩ := color_adds_sequences true .text twoFiles
  obtain ⟨-, -, -, hout, herr⟩ := htext hshown
  exact ⟨hshown, by decide +kernel, by decide +kernel, hout, herr⟩

end EditionCheck
