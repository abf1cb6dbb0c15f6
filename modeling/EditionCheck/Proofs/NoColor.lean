import EditionCheck.Proofs.ExitStatus
import EditionCheck.Proofs.Invocations
import EditionCheck.Proofs.ShownPaths

/-!
# Runs without colour

With the option `--no-color`, a check prints no escape sequence, however colour is asked for by the
environment and however the run ends, also where it crashes, with one exception: the error for settings that
are wrong is printed before the option is looked at, and so in colour where colour is forced.

* `World.limited` — a world whose channels may refuse any text;
* `Keeps` — what a computation leaves of a transcript without escape characters;
* `keeps_check` — a check without colour leaves one, whether it ends well or not;
* `no_color_escapes` — so does a run, with the exception.
-/

set_option autoImplicit false

namespace EditionCheck.CommandLine

open EditionCheck.Files EditionCheck.Log EditionCheck.Settings EditionCheck.Text

/-! ## Transcripts without escape characters -/

/-- No text of a transcript holds an escape character. -/
structure Transcript.Shown (t : Transcript) : Prop where
  printed : ∀ p ∈ t.printed, NoEscape p.2.toList
  logged : ∀ line ∈ t.logged, NoEscape line.toList

namespace Transcript

variable {t : Transcript}

theorem shown_empty : Shown {} := ⟨nofun, nofun⟩

theorem Shown.print (h : t.Shown) {channel : Channel} {text : String} (htext : NoEscape text.toList) :
    (t.print channel text).Shown :=
  ⟨List.forall_mem_append.2 ⟨h.printed, List.forall_mem_singleton.2 htext⟩, h.logged⟩

theorem Shown.note (h : t.Shown) {line : String} (hline : NoEscape line.toList) : (t.note line).Shown :=
  ⟨h.printed, List.forall_mem_append.2 ⟨h.logged, List.forall_mem_singleton.2 hline⟩⟩

end Transcript

section

variable {α β : Type} {P : α → Prop} {R : β → Prop}

/-- A computation leaves no escape character in a transcript that has none, and its result has a
property. -/
def Keeps (x : StateM Transcript α) (P : α → Prop) : Prop :=
  ∀ t : Transcript, t.Shown → P (x.run t).1 ∧ (x.run t).2.Shown

theorem keeps_pure {a : α} (h : P a) : Keeps (pure a) P := fun _ ht => ⟨h, ht⟩

theorem Keeps.bind {x : StateM Transcript α} {f : α → StateM Transcript β} (hx : Keeps x P)
    (hf : ∀ a, P a → Keeps (f a) R) : Keeps (x >>= f) R := by
  intro t ht
  obtain ⟨ha, ht'⟩ := hx t ht
  exact hf _ ha _ ht'

/-- A computation that may fail keeps a transcript, and fails with what has a property only. -/
def KeepsOr {ε : Type} (x : ExceptT ε (StateM Transcript) α) (shown : ε → Prop) : Prop :=
  Keeps x.run fun r => ∀ e, r = .error e → shown e

variable {ε : Type} {shown : ε → Prop}

theorem keepsOr_pure (a : α) : KeepsOr (pure a) shown := keeps_pure nofun

theorem keepsOr_throw {e : ε} (he : shown e) : KeepsOr (throw e : ExceptT ε (StateM Transcript) α) shown :=
  keeps_pure fun _ he' => Except.error.inj he' ▸ he

theorem keepsOr_lift {x : StateM Transcript α} (hx : Keeps x fun _ => True) :
    KeepsOr (liftM x : ExceptT ε (StateM Transcript) α) shown := by
  rw [KeepsOr, ExceptT.run_liftM]
  exact fun t ht => ⟨nofun, (hx t ht).2⟩

theorem KeepsOr.bind {x : ExceptT ε (StateM Transcript) α} {f : α → ExceptT ε (StateM Transcript) β}
    (hx : KeepsOr x shown) (hf : ∀ a, KeepsOr (f a) shown) : KeepsOr (x >>= f) shown := by
  rw [KeepsOr, ExceptT.run_bind]
  refine Keeps.bind hx fun r hr => ?_
  cases r with
  | ok a => exact hf a
  | error e => exact keeps_pure fun _ he => Except.error.inj he ▸ hr e rfl

theorem KeepsOr.adapt {ε' : Type} {shown' : ε' → Prop} {x : ExceptT ε (StateM Transcript) α} {f : ε → ε'}
    (hx : KeepsOr x shown) (hf : ∀ e, shown e → shown' (f e)) : KeepsOr (ExceptT.adapt f x) shown' := by
  intro t ht
  obtain ⟨herror, hkept⟩ := hx t ht
  refine ⟨fun e' he' => ?_, hkept⟩
  have hmapped : ((x.run.run t).1).mapError f = .error e' := he'
  cases hresult : (x.run.run t).1 with
  | ok a =>
    rw [hresult] at hmapped
    cases hmapped
  | error e =>
    rw [hresult] at hmapped
    cases hmapped
    exact hf e (herror e hresult)

end

/-! ## A world with limits -/

/-- A world in which the files do not change, and a channel may refuse a text for what has been printed
before. -/
def World.limited (files : Access Id) (directory : Option (List UInt8))
    (refusal : Transcript → Channel → Option Fault) : World (StateM Transcript) where
  files := files.fixed
  directory := pure directory
  write channel text := ExceptT.mk fun t =>
    match refusal t channel with
    | some fault => (.error fault, t)
    | none => (.ok (), t.print channel text)
  record line := fun t => ((), t.note line)

section

variable (files : Access Id) (directory : Option (List UInt8))
  {refusal : Transcript → Channel → Option Fault}

/-- Ending with an error. -/
theorem abort_limited (color : Bool) (e : Obstacle) (t : Transcript) :
    (((World.limited files directory refusal).abort color e).run t).2
      = match refusal t .err with
        | some _ => t
        | none => t.print .err (Color.red.paint color "✖ ecma-v:" ++ " " ++ e.message ++ "\n") := by
  show (match refusal t .err with
    | some fault => (Except.error fault, t)
    | none => (.ok (), t.print .err _) : Except Fault Unit × Transcript).2 = _
  cases refusal t .err <;> rfl

/-- Ending with an error in colour puts escape characters on the error output and nowhere else, unless
the channel refuses the text. -/
theorem escapes_of_abort (e : Obstacle) {t : Transcript} (ht : t.Shown) :
    let after := (((World.limited files directory refusal).abort true e).run t).2
    (∀ p ∈ after.printed, '\x1b' ∈ p.2.toList → p.1 = .err)
      ∧ after.logged = t.logged
      ∧ (refusal t .err = none → ∃ text, (.err, text) ∈ after.printed ∧ '\x1b' ∈ text.toList) := by
  intro after
  have hafter : after = match refusal t .err with
      | some _ => t
      | none => t.print .err (Color.red.paint true "✖ ecma-v:" ++ " " ++ e.message ++ "\n") :=
    abort_limited files directory true e t
  rw [hafter]
  cases refusal t .err with
  | some fault =>
    exact ⟨fun p hp hescape => absurd hescape (ht.printed p hp), rfl, nofun⟩
  | none =>
    refine ⟨fun p hp hescape => ?_, rfl, fun _ => ?_⟩
    · rcases List.mem_append.1 hp with hp | hp
      · exact absurd hescape (ht.printed p hp)
      · exact congrArg Prod.fst (List.mem_singleton.1 hp)
    · refine ⟨_, List.mem_append_right _ (List.mem_singleton.2 rfl), ?_⟩
      simp [Color.paint]

variable (hrefusal : ∀ t channel fault, refusal t channel = some fault → NoEscape fault.message.toList)
include hrefusal

/-- Writing a text. -/
theorem keeps_write {channel : Channel} {text : String} (htext : NoEscape text.toList) :
    KeepsOr ((World.limited files directory refusal).write channel text)
      fun fault => NoEscape fault.message.toList := by
  intro t ht
  show (∀ e, (match refusal t channel with
      | some fault => (.error fault, t)
      | none => (.ok (), t.print channel text) : Except Fault Unit × Transcript).1 = .error e → _)
    ∧ (match refusal t channel with
      | some fault => (.error fault, t)
      | none => (.ok (), t.print channel text) : Except Fault Unit × Transcript).2.Shown
  cases h : refusal t channel with
  | none => exact ⟨nofun, ht.print htext⟩
  | some fault => exact ⟨fun e he => Except.error.inj he ▸ hrefusal t channel fault h, ht⟩

theorem keeps_say {channel : Channel} {text : String} (htext : NoEscape text.toList) :
    Keeps ((World.limited files directory refusal).say channel text) fun _ => True := by
  unfold World.say
  exact Keeps.bind (keeps_write files directory hrefusal htext) fun _ _ => keeps_pure trivial

theorem keeps_complain {lines : List String} (hlines : ∀ line ∈ lines, NoEscape line.toList) :
    Keeps (lines.forM fun line => (World.limited files directory refusal).say .err (line ++ "\n"))
      fun _ => True := by
  induction lines with
  | nil => exact keeps_pure trivial
  | cons line lines ih =>
    obtain ⟨hline, hrest⟩ := List.forall_mem_cons.1 hlines
    exact (keeps_say files directory hrefusal (by simp [hline])).bind fun _ _ => ih hrest

/-- Ending with an error, without colour. -/
theorem keeps_abort {e : Obstacle} (he : e.Shown) :
    Keeps ((World.limited files directory refusal).abort false e) fun _ => True := by
  have hmessage := noEscape_obstacle he
  unfold World.abort
  refine (keeps_say files directory hrefusal ?_).bind fun _ _ => keeps_pure trivial
  simp [Color.paint, hmessage]

theorem keeps_writePieces {pieces : List (Channel × String)}
    (hpieces : ∀ piece ∈ pieces, NoEscape piece.2.toList) :
    KeepsOr (Style.writePieces (World.limited files directory refusal).write pieces)
      fun fault => NoEscape fault.message.toList := by
  induction pieces with
  | nil => exact keepsOr_pure ()
  | cons piece pieces ih =>
    obtain ⟨hpiece, hrest⟩ := List.forall_mem_cons.1 hpieces
    exact (keeps_write files directory hrefusal hpiece).bind fun _ => ih hrest

variable (style : Style) (hplain : (style.options.color && style.escapes) = false)
include hplain

/-- A notice that is printed without colour. -/
theorem keeps_reporter {n : Notice} (hn : n.Shown) :
    KeepsOr (style.reporter (World.limited files directory refusal).write n) Obstacle.Shown := by
  obtain ⟨hpieces, hfault⟩ := noEscape_printed hplain hn
  have houtput (fault : Fault) (h : NoEscape fault.message.toList) : (Obstacle.output fault).Shown := h
  unfold Style.reporter
  refine KeepsOr.adapt ?_ houtput
  refine (keeps_writePieces files directory hrefusal hpieces).bind fun _ => ?_
  split
  · next fault h => exact keepsOr_throw (hfault fault h)
  · exact keepsOr_pure ()

/-- A course that shows no escape character is followed without colour. -/
theorem keeps_follow {α : Type} (filter : Filter) {c : Course α} {P : α → Prop} (hc : c.Shows P) :
    KeepsOr (c.follow ((World.limited files directory refusal).host filter).log
      (style.reporter (World.limited files directory refusal).write)) Obstacle.Shown := by
  have hdeeds (ds : List Deed) (hds : ∀ d ∈ ds, d.Shown) :
      KeepsOr (Course.performAll ((World.limited files directory refusal).host filter).log
        (style.reporter (World.limited files directory refusal).write) ds) Obstacle.Shown := by
    induction ds with
    | nil => exact keepsOr_pure ()
    | cons d ds ih =>
      obtain ⟨hd, hrest⟩ := List.forall_mem_cons.1 hds
      rw [Course.performAll]
      refine KeepsOr.bind ?_ fun _ => ih hrest
      cases d with
      | log e =>
        refine keepsOr_lift ?_
        unfold World.host
        dsimp only
        split
        · exact fun t ht => ⟨trivial, ht.note (noEscape_event hd)⟩
        · exact keeps_pure trivial
      | tell n => exact keeps_reporter files directory hrefusal style hplain hd
  exact (hdeeds c.deeds hc.deeds).bind fun _ => keeps_pure hc.error

/-- A check without colour. -/
theorem keeps_check (filter : Filter) (hfiles : files.Shown) (request : CheckRequest)
    (hpatterns : ∀ p ∈ request.patterns, NoEscape p.toList) :
    KeepsOr (((World.limited files directory refusal).host filter).check
      (style.reporter (World.limited files directory refusal).write) request) Obstacle.Shown := by
  have hhost : (World.limited files directory refusal).host filter
      = Host.over files ((World.limited files directory refusal).host filter).log := rfl
  rw [hhost, check_over_eq_follow]
  exact keeps_follow files directory hrefusal style hplain filter (shows_runCourse hfiles hpatterns)

end

/-! ## Runs -/

/-- The complaints about the log level quote parts of it. -/
theorem noEscape_complaints (env : Environment) {level : Option String}
    (hlevel : ∀ text, level = some text → NoEscape text.toList) :
    ∀ line ∈ (filterFor env level).2, NoEscape line.toList := by
  have htext : NoEscape (level.getD "warn").toList := by
    cases level with
    | none => decide
    | some text => exact hlevel text rfl
  unfold filterFor
  split
  · exact nofun
  · intro line hline
    obtain ⟨read, hread, hcomplaint⟩ := List.mem_filterMap.1 hline
    obtain ⟨part, hpart, rfl⟩ := List.mem_map.1 hread
    have hpartShown : NoEscape part :=
      htext.mono (subset_of_mem_splitOn (List.mem_filter.1 hpart).1)
    dsimp only at hcomplaint
    split at hcomplaint
    · cases hcomplaint
    · cases hcomplaint
      simp [hpartShown]

section

variable {files : Access Id} {directory : Option (List UInt8)}
  {refusal : Transcript → Channel → Option Fault} {env : Environment} {i : Invocation}
  (hrefusal : ∀ t channel fault, refusal t channel = some fault → NoEscape fault.message.toList)
  (hfiles : files.Shown) (hshown : i.Shown)
include hrefusal hshown

/-- Without settings, a check prints complaints and the wording of the crash. -/
theorem keeps_crashed {crash : Crash} (hcrash : settingsIn files directory env = .error crash) :
    Keeps ((World.limited files directory refusal).check env i) fun _ => True := by
  rw [World.check_fixed _ files directory rfl rfl]
  dsimp only
  rw [hcrash]
  refine (keeps_complain files directory hrefusal (noEscape_complaints env hshown.level)).bind
    fun _ _ => ?_
  exact (keeps_say files directory hrefusal (by simp)).bind fun _ _ => keeps_pure trivial

variable {settings : Environment} (hsettings : settingsIn files directory env = .ok settings)
include hsettings

include hfiles in
/-- With settings that are right, a check without colour shows no escape character. -/
theorem keeps_configured (hcolor : i.noColor = true) {options : Options}
    (hright : Options.ofEnvironment settings = .ok options) :
    Keeps ((World.limited files directory refusal).check env i) fun _ => True := by
  have hoff : (i.adjust options).color = false := by simp [Invocation.adjust, hcolor]
  rw [World.check_fixed _ files directory rfl rfl]
  dsimp only
  rw [hsettings]
  dsimp only
  rw [hright]
  refine (keeps_complain files directory hrefusal (noEscape_complaints env hshown.level)).bind
    fun _ _ => ?_
  simp only [hoff, Bool.false_and]
  have hchecked := keeps_check files directory hrefusal ⟨i.adjust options, false⟩ (by simp)
    (filterFor env i.logLevel).1 hfiles ⟨i.token, i.patterns⟩ hshown.patterns
  refine Keeps.bind hchecked fun r hr => ?_
  cases r with
  | ok report => exact keeps_pure trivial
  | error e => exact keeps_abort files directory hrefusal (hr e rfl)

/-- With settings that are wrong, a check prints complaints without escape characters, and then the error
in colour where colour is forced. -/
theorem check_misconfigured {e : OptionsError} (hwrong : Options.ofEnvironment settings = .error e)
    {t : Transcript} (ht : t.Shown) :
    ∃ t' : Transcript, t'.Shown
      ∧ ((World.limited files directory refusal).check env i).run t
        = ((World.limited files directory refusal).abort (forcesColor settings)
            (.configuration e)).run t' := by
  have hcomplained := keeps_complain files directory hrefusal (noEscape_complaints env hshown.level) t ht
  rw [World.check_fixed _ files directory rfl rfl]
  dsimp only
  rw [hsettings]
  dsimp only
  rw [hwrong]
  exact ⟨_, hcomplained.2, rfl⟩

end

/-- The settings of a run ask for a format that there is not, while colour is forced. -/
def WrongInColor (files : Access Id) (directory : Option (List UInt8)) (env : Environment) : Prop :=
  ∃ settings, settingsIn files directory env = .ok settings ∧ Misconfigured settings
    ∧ forcesColor settings = true

theorem not_wrongInColor_of_crash {files : Access Id} {directory : Option (List UInt8)}
    {env : Environment} {crash : Crash} (hcrash : settingsIn files directory env = .error crash) :
    ¬WrongInColor files directory env := by
  rintro ⟨settings, hsettings, -⟩
  rw [hcrash] at hsettings
  cases hsettings

theorem wrongInColor_iff {files : Access Id} {directory : Option (List UInt8)}
    {env settings : Environment} (hsettings : settingsIn files directory env = .ok settings) :
    WrongInColor files directory env ↔ Misconfigured settings ∧ forcesColor settings = true := by
  constructor
  · rintro ⟨_, hloaded, hwrong⟩
    cases hsettings.symm.trans hloaded
    exact hwrong
  · exact fun hwrong => ⟨settings, hsettings, hwrong⟩

/-- A transcript without escape characters, where there is no exception. -/
theorem Transcript.Shown.without_exception {t : Transcript} (h : t.Shown) {exception accepted : Prop}
    (hnone : ¬exception) :
    (∀ channel text, (channel, text) ∈ t.printed → '\x1b' ∈ text.toList → channel = .err ∧ exception)
      ∧ (∀ line ∈ t.logged, '\x1b' ∉ line.toList)
      ∧ (accepted → exception → ∃ text, (.err, text) ∈ t.printed ∧ '\x1b' ∈ text.toList) :=
  ⟨fun _ _ hprinted hescape => absurd hescape (h.printed _ hprinted), h.logged,
    fun _ hexception => absurd hexception hnone⟩

/-- **A check without colour.** The option `--no-color` is given; the names of the files, the arguments and
the values of the environment hold no escape character, nor does the wording of the faults with which
channels refuse texts. However the run ends, no escape character stands on the output or in the log. One
stands on the error output only if the settings ask for a format that there is not while colour is forced;
and then one does, unless the channel refuses texts. -/
theorem no_color_escapes (t : Tree) (current : Place) (directory : Option (List UInt8))
    (refusal : Transcript → Channel → Option Fault) (env : Environment) (arguments : List String)
    (i : Invocation) (hcommand : Command.ofArguments env arguments = .ok (.check i))
    (hflag : NoColorGiven arguments)
    (hnames : ∀ e ∈ t.entries, ∀ name ∈ e.1, escapeByte ∉ name)
    (harguments : ∀ a ∈ arguments, '\x1b' ∉ a.toList)
    (henv : ∀ name value, env.text? name = some value → '\x1b' ∉ value)
    (hrefusal : ∀ s channel fault, refusal s channel = some fault → '\x1b' ∉ fault.message.toList) :
    let files : Access Id := t.access current
    let transcript := (((World.limited files directory refusal).run env arguments).run {}).2
    (∀ channel text, (channel, text) ∈ transcript.printed → '\x1b' ∈ text.toList →
        channel = .err ∧ WrongInColor files directory env)
      ∧ (∀ line ∈ transcript.logged, '\x1b' ∉ line.toList)
      ∧ ((∀ s, refusal s .err = none) → WrongInColor files directory env →
          ∃ text, (.err, text) ∈ transcript.printed ∧ '\x1b' ∈ text.toList) := by
  intro files transcript
  obtain ⟨hshown, hcolor⟩ := check_of_arguments henv harguments hcommand
  have hfiles : files.Shown := shown_access hnames current
  have hrun : transcript = (((World.limited files directory refusal).check env i).run {}).2 := by
    simp only [transcript, World.run, hcommand]
  cases hsettings : settingsIn files directory env with
  | error crash =>
    have hkept : transcript.Shown :=
      hrun ▸ (keeps_crashed hrefusal hshown hsettings {} Transcript.shown_empty).2
    exact hkept.without_exception (not_wrongInColor_of_crash hsettings)
  | ok settings =>
    cases hoptions : Options.ofEnvironment settings with
    | ok options =>
      have hkept : transcript.Shown :=
        hrun ▸ (keeps_configured hrefusal hfiles hshown hsettings (hcolor hflag) hoptions {}
          Transcript.shown_empty).2
      refine hkept.without_exception fun hexception => ?_
      obtain ⟨hwrong, -⟩ := (wrongInColor_iff hsettings).1 hexception
      obtain ⟨e, he⟩ := misconfigured_iff.1 hwrong
      rw [hoptions] at he
      cases he
    | error e =>
      have hwrong : Misconfigured settings := misconfigured_iff.2 ⟨e, hoptions⟩
      obtain ⟨s, hs, hcheck⟩ :=
        check_misconfigured hrefusal hshown hsettings hoptions Transcript.shown_empty
      rw [hcheck] at hrun
      cases hforced : forcesColor settings with
      | false =>
        rw [hforced] at hrun
        have hkept : transcript.Shown :=
          hrun ▸ (keeps_abort files directory hrefusal (e := .configuration e) trivial s hs).2
        refine hkept.without_exception fun hexception => ?_
        obtain ⟨-, hon⟩ := (wrongInColor_iff hsettings).1 hexception
        rw [hforced] at hon
        cases hon
      | true =>
        obtain ⟨hprinted, hlogged, hpainted⟩ :=
          escapes_of_abort files directory (.configuration e) hs
        rw [hforced] at hrun
        rw [hrun]
        have hexception := (wrongInColor_iff hsettings).2 ⟨hwrong, hforced⟩
        refine ⟨fun channel text hmem hescape => ⟨hprinted _ hmem hescape, hexception⟩, ?_, ?_⟩
        · rw [hlogged]
          exact hs.logged
        · exact fun hnone _ => hpainted (hnone s)

/-! ## Forced colour -/

/-- A directory with one script, which is no script of version 5. -/
def oneScript : Tree :=
  ⟨[([[119]], .directory),
    ([[119], Utf8.encode "a.js".toList], .file [99, 111, 110, 115, 116, 32, 120, 61, 49])]⟩

/-- The world in that directory, which takes everything. -/
def oneScriptWorld : World (StateM Transcript) :=
  .limited (oneScript.access [[119]]) (some [slash, 119]) fun _ _ => none

/-- Colour is forced. -/
def forcedColor : Environment := Environment.empty.put forceVariable ['1']

theorem noEscape_put {env : Environment}
    (henv : ∀ name value, env.text? name = some value → '\x1b' ∉ value) (name : List Char)
    {value : List Char} (hvalue : '\x1b' ∉ value) :
    ∀ name' value', (env.put name value).text? name' = some value' → '\x1b' ∉ value' := by
  intro name' value' h
  by_cases hname : name = name'
  · rw [← hname, Environment.text?_put_self] at h
    cases h
    exact hvalue
  · rw [Environment.text?_put_of_ne _ _ hname] at h
    exact henv name' value' h

theorem noEscape_forcedColor : ∀ name value, forcedColor.text? name = some value → '\x1b' ∉ value :=
  noEscape_put (fun _ _ h => by cases h) forceVariable (by decide)

/-- No name in that directory holds an escape character. -/
theorem noEscape_oneScript : ∀ e ∈ oneScript.entries, ∀ name ∈ e.1, escapeByte ∉ name := by
  decide +kernel

/-- There is no file `.env` in that directory or above it. -/
theorem settingsIn_oneScript (env : Environment) :
    settingsIn (oneScript.access [[119]]) (some [slash, 119]) env = .ok env := by
  have hnofile : (findFile (oneScript.access [[119]] : Access Id) (ancestors [slash, 119])).run = none := by
    decide +kernel
  simp only [settingsIn, loadFor, Id.run_bind, hnofile]
  rfl

/-- A file that fails is reported without escape sequences, though colour is forced. -/
theorem no_color_escapes_failing_file :
    let arguments := ["check", "--no-color", "ecma5", "a.js"]
    Command.ofArguments forcedColor arguments
        = .ok (.check ⟨none, true, false, false, "ecma5", ["a.js"]⟩)
      ∧ ∀ channel text, (channel, text) ∈ ((oneScriptWorld.run forcedColor arguments).run {}).2.printed →
          '\x1b' ∉ text.toList := by
  intro arguments
  have hcommand : Command.ofArguments forcedColor arguments
      = .ok (.check ⟨none, true, false, false, "ecma5", ["a.js"]⟩) := rfl
  have hflag : NoColorGiven arguments := by decide
  have hright : ¬Misconfigured forcedColor := by
    rintro ⟨value, hvalue, -⟩
    rw [forcedColor, Environment.text?_put_of_ne _ _ (by decide)] at hvalue
    cases hvalue
  refine ⟨hcommand, fun channel text hprinted hescape => ?_⟩
  obtain ⟨-, settings, hsettings, hwrong, -⟩ := (no_color_escapes oneScript [[119]] (some [slash, 119])
    (fun _ _ => none) forcedColor arguments _ hcommand hflag noEscape_oneScript (by decide)
    noEscape_forcedColor (fun _ _ _ h => by cases h)).1 channel text hprinted hescape
  rw [settingsIn_oneScript] at hsettings
  cases hsettings
  exact hright hwrong

/-- Colour is forced, and the settings ask for a format that there is not. -/
def forcedColorWrong : Environment := forcedColor.put Options.formatVariable "xml".toList

/-- The error for settings that are wrong is printed in colour, though `--no-color` is given. -/
theorem no_color_error_painted :
    let arguments := ["--no-color", "check", "ecma5"]
    Command.ofArguments forcedColorWrong arguments = .ok (.check ⟨none, true, false, false, "ecma5", []⟩)
      ∧ NoColorGiven arguments
      ∧ (∀ e ∈ oneScript.entries, ∀ name ∈ e.1, escapeByte ∉ name)
      ∧ (∀ a ∈ arguments, '\x1b' ∉ a.toList)
      ∧ (∀ name value, forcedColorWrong.text? name = some value → '\x1b' ∉ value)
      ∧ ((oneScriptWorld.run forcedColorWrong arguments).run {}).2.printed
        = [(.err, "\x1b[1;31m✖ ecma-v:\x1b[0m configuration error: "
            ++ "invalid value for environment variable ECMAV_FORMAT: \x22xml\x22\n")] := by
  intro arguments
  have hcommand : Command.ofArguments forcedColorWrong arguments
      = .ok (.check ⟨none, true, false, false, "ecma5", []⟩) := rfl
  have hwrong : Options.ofEnvironment forcedColorWrong = .error (.unknownFormat "xml".toList) := by
    rw [Options.ofEnvironment_error_iff, Options.formatOf, forcedColorWrong,
      Environment.text?_put_self]
    rfl
  have hforced : forcesColor forcedColorWrong = true := by
    rw [forcesColor, forcedColorWrong, Environment.text?_put_of_ne _ _ (by decide), forcedColor,
      Environment.text?_put_self]
    rfl
  have hcomplaints : (filterFor forcedColorWrong none).2 = [] := by decide +kernel
  have hworld : oneScriptWorld = World.working (oneScript.access [[119]]) (some [slash, 119]) := rfl
  refine ⟨hcommand, by decide, noEscape_oneScript, by decide,
    noEscape_put noEscape_forcedColor _ (by decide), ?_⟩
  rw [hworld, run_misconfigured _ _ (settingsIn_oneScript forcedColorWrong) hcommand hwrong, hcomplaints,
    hforced]
  decide +kernel

end EditionCheck.CommandLine
