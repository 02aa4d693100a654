import LineShell.Application
import LineShell.Proofs.Application.Arguments

/-!
# Fronts as they are documented

What a run relies on when its front reads arguments and picks events: which arguments start a
session and with what options, and which events a level lets through. `documented_standard`: the
standard front keeps to it.
-/

namespace LineShell.Application.Front

structure Documented (front : Front) : Prop where
  reads : ∀ arguments o,
    front.read arguments = .ok (.run o) ↔ ∃ wishes, Options.Accepts arguments wishes o
  /-- A variable that is not set asks for nothing. -/
  unset : front.filter? none = none
  upTo : ∀ finest e, front.upTo finest e = decide (e.level.rank ≤ finest.rank)

theorem admits_ofLevel (finest : Log.Level) (e : Log.Event) :
    (Log.Filter.ofLevel finest).admits e = finest.admits e.level := by
  simp [Log.Filter.ofLevel, Log.Filter.admits, Log.Filter.decisive?, Log.Filter.weightier,
    Log.Directive.speaksOf, Log.Directive.admits]

theorem documented_standard : Documented .standard where
  reads _ _ := Options.ofArguments_run_iff
  unset := rfl
  upTo := admits_ofLevel

end LineShell.Application.Front
