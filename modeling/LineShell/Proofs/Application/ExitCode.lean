import LineShell.Programs.System
import LineShell.Proofs.Application.Fronts
import LineShell.Proofs.Builtin.Duplicating
import LineShell.Proofs.Config.Choice
import LineShell.Proofs.Loop.Silence
import LineShell.Proofs.World.Fresh

/-!
# Sessions and their exit codes

A run with accepted arguments either has no configuration, and then it only says so, or it is the
read loop from its start to its end. `run_settles`: it ends well unless there is no configuration or
the loop is refused something of its own, and nothing else that happens in a session shows in the
exit code. There is none if a fifo is opened that nobody writes to, be it for the configuration or
for a copy.
-/

namespace LineShell.Application

open Config (Chooses Configures)
open Options (Accepts)

def loop (host : Programs.Host) (config : Config) (s : Session) : Repl :=
  .ofConfig host config { s with log := s.log ++ [.configured config] }

/-- What a run comes to that starts a session with some options. -/
structure Settles (front : Front) (host : Programs.Host) (arguments : List Bytes) (o : Options)
    (s : Session) : Prop where
  /-- The options are those that the arguments list. -/
  asked : ∃ wishes, Accepts arguments wishes o
  chosen : ∃ choice, ∀ other, Chooses s.world o.config other ↔ other = choice
  configured : ∃ result, ∀ other, Configures s.world o.config other ↔ other = result
  /-- Without a configuration nothing is read, written or run. -/
  unconfigured : ∀ e, Configures s.world o.config (.error (.refused e)) →
    run front host arguments s =
      { code := some 1, session := s, complaint := "pshell: " ++ e.message ++ "\n" }
  unanswered : Configures s.world o.config (.error .waits) →
    run front host arguments s = { code := none, session := s }
  looped : ∀ config, Configures s.world o.config (.ok config) →
    ∃ log, (run front host arguments s).session = { (loop host config s).run.2.session with log }
  succeeded_iff : ∀ config, Configures s.world o.config (.ok config) →
    ((run front host arguments s).code = some 0 ↔ ∀ stop, ¬ (loop host config s).Halted stop)
  failed_iff : ∀ config, Configures s.world o.config (.ok config) →
    ((run front host arguments s).code = some 1 ↔ ∃ f, (loop host config s).Halted (.refused f))
  waits_iff : ∀ config, Configures s.world o.config (.ok config) →
    ((run front host arguments s).code = none ↔ (loop host config s).Halted .waits)
  /-- Whatever the commands, the children and the input do. -/
  heard : ∀ config, Configures s.world o.config (.ok config) → s.out.NeverFails →
    ¬ (loop host config s).Halted .waits → (run front host arguments s).code = some 0

variable {front : Front} {host : Programs.Host} {arguments : List Bytes} {o : Options}
  {s : Session} {config : Config}

theorem run_accepted (h : front.read arguments = .ok (.run o)) :
    run front host arguments s = start front host o s := by
  rw [run, h]

theorem start_unconfigured {e : Config.Error}
    (h : Configures s.world o.config (.error (.refused e))) :
    start front host o s =
      { code := some 1, session := s, complaint := "pshell: " ++ e.message ++ "\n" } := by
  rw [start, configuration_iff.mpr h]
  rfl

theorem start_unanswered (h : Configures s.world o.config (.error .waits)) :
    start front host o s = { code := none, session := s } := by
  rw [start, configuration_iff.mpr h]

theorem start_configured (h : Configures s.world o.config (.ok config)) :
    (start front host o s).code = (runLoop host config s).1 ∧
      (start front host o s).session = (runLoop host config s).2 := by
  rw [start, configuration_iff.mpr h]
  exact ⟨rfl, rfl⟩

theorem runLoop_eq (host : Programs.Host) (config : Config) (s : Session) :
    runLoop host config s = match (loop host config s).run with
      | (.ok (), r) => (some 0, r.session)
      | (.error (.refused f), r) =>
        (some 1, { r.session with log := r.session.log ++ [.unwritable f] })
      | (.error .waits, r) => (none, r.session) := rfl

theorem runLoop_session (host : Programs.Host) (config : Config) (s : Session) :
    ∃ log, (runLoop host config s).2 = { (loop host config s).run.2.session with log } := by
  rw [runLoop_eq]
  rcases (loop host config s).run with ⟨(f | _) | _, r⟩
  · exact ⟨_, rfl⟩
  · exact ⟨_, rfl⟩
  · exact ⟨_, rfl⟩

theorem runLoop_code (host : Programs.Host) (config : Config) (s : Session) :
    ((runLoop host config s).1 = some 0 ↔ ∀ stop, ¬ (loop host config s).Halted stop) ∧
      ((runLoop host config s).1 = some 1 ↔ ∃ f, (loop host config s).Halted (.refused f)) ∧
      ((runLoop host config s).1 = none ↔ (loop host config s).Halted .waits) := by
  have hhalted (stop : Stop Failure) : (loop host config s).Halted stop ↔
      (loop host config s).run.1 = .error stop := (Repl.run_error_iff rfl).symm
  simp only [hhalted, runLoop_eq]
  rcases (loop host config s).run with ⟨(f | _) | _, r⟩
  · simp
  · simp
  · simp

/-- What a run with accepted arguments comes to. -/
theorem run_settles (hfront : front.Documented) (h : front.read arguments = .ok (.run o))
    (host : Programs.Host) (s : Session) : Settles front host arguments o s where
  asked := (hfront.reads arguments o).mp h
  chosen := by
    obtain ⟨choice, hchoice⟩ := Config.exists_chooses s.world o.config
    exact ⟨choice, hchoice.iff⟩
  configured :=
    ⟨configuration s.world o, fun other => configuration_iff.symm.trans eq_comm⟩
  unconfigured e he := by
    rw [run_accepted h, start_unconfigured he]
  unanswered hwaits := by
    rw [run_accepted h, start_unanswered hwaits]
  looped config hconfig := by
    obtain ⟨log, hlog⟩ := runLoop_session host config s
    rw [run_accepted h, (start_configured hconfig).2]
    exact ⟨log, hlog⟩
  succeeded_iff config hconfig := by
    rw [run_accepted h, (start_configured hconfig).1]
    exact (runLoop_code host config s).1
  failed_iff config hconfig := by
    rw [run_accepted h, (start_configured hconfig).1]
    exact (runLoop_code host config s).2.1
  waits_iff config hconfig := by
    rw [run_accepted h, (start_configured hconfig).1]
    exact (runLoop_code host config s).2.2
  heard config hconfig hn hno := by
    have hlaunch : (loop host config s).dispatcher.launch = Programs.launch host := rfl
    rw [run_accepted h, (start_configured hconfig).1, (runLoop_code host config s).1]
    rintro (f | _)
    · exact Repl.not_silenced hlaunch hn f
    · exact hno

/-- A directory is no configuration. Without a name for one the session goes well, although its
home has no name, and neither of its lines makes sense. -/
theorem run_settles_astray :
    let s : Session := {
      world := { World.fresh with environment := [(bytesOf "HOME", [])] }
      stdin := bytesOf "up now\n" ++ [0xFF, 0x0A] }
    Front.Documented .standard ∧
      Front.standard.read [bytesOf "-vc", bytesOf "/etc"] = .ok (.run ⟨some (bytesOf "/etc"), 1⟩) ∧
      (run .standard (.system false) [bytesOf "-vc", bytesOf "/etc"] s).code = some 1 ∧
      Front.standard.read [bytesOf "--verbose"] = .ok (.run ⟨none, 1⟩) ∧
      (run .standard (.system false) [bytesOf "--verbose"] s).code = some 0 := by
  intro s
  have hnamed : Front.standard.read [bytesOf "-vc", bytesOf "/etc"] =
      .ok (.run ⟨some (bytesOf "/etc"), 1⟩) := by rfl
  have hplain : Front.standard.read [bytesOf "--verbose"] = .ok (.run ⟨none, 1⟩) := by rfl
  have hdirectory : Configures s.world (some (bytesOf "/etc"))
      (.error (.refused (.unreadable (.system .isDirectory)))) := by
    exact .file (.named rfl) (.unreadable (World.readText_iff.mp World.fresh_readText_etc))
  have hdefault : Chooses s.world none none := by
    refine .default rfl ?_
    intro home bytes hhome hholds
    obtain rfl : [] = home := Option.some.inj hhome
    have hregular := World.isFile_iff.mpr ⟨bytes, hholds⟩
    exact Bool.eq_false_iff.mp World.fresh_isFile_pshellrc hregular
  have hn : s.out.NeverFails := ⟨rfl, rfl, by simp [s], rfl⟩
  have hends : (loop (.system false) .default s).run.1.isOk = true := by decide +kernel
  have hno : ¬ (loop (.system false) .default s).Halted .waits := by
    rw [← Repl.run_error_iff rfl]
    intro hwaits
    rw [hwaits] at hends
    cases hends
  have hsettles := run_settles Front.documented_standard hnamed (.system false) s
  refine ⟨Front.documented_standard, hnamed, ?_, hplain, ?_⟩
  · rw [hsettles.unconfigured _ hdirectory]
  · exact (run_settles Front.documented_standard hplain (.system false) s).heard _
      (.default hdefault) hn hno

/-- A configuration file that is a fifo. The run has no exit code, since it never ends. -/
theorem run_keepsWaiting :
    let s : Session := { world := .piped }
    Front.standard.read [bytesOf "--config", bytesOf "pipe"] =
        .ok (.run { config := some (bytesOf "pipe") }) ∧
      (run .standard (.system false) [bytesOf "--config", bytesOf "pipe"] s).code = none := by
  intro s
  have hread : Front.standard.read [bytesOf "--config", bytesOf "pipe"] =
      .ok (.run { config := some (bytesOf "pipe") }) := by rfl
  obtain ⟨node, hstat, hfifo, hmay⟩ := World.leadsToFifo_pipe
  obtain ⟨id, hlocate, hnode⟩ := World.stat_eq_ok.mp hstat
  obtain ⟨bytes, hbytes, hlookup⟩ := World.locate_eq_ok.mp hlocate
  obtain rfl : bytesOf "pipe" = bytes := Except.ok.inj hbytes
  have hopens : World.piped.Opens (bytesOf "pipe") node :=
    ⟨id, ⟨by decide, hlookup⟩, hnode, hmay⟩
  have hwaits : Configures s.world (some (bytesOf "pipe")) (.error .waits) :=
    .file (.named rfl) (.waits (.fifo hopens (Files.Node.isFifo_iff.mp hfifo)))
  refine ⟨hread, ?_⟩
  rw [run_accepted hread, start_unanswered hwaits]

end LineShell.Application
