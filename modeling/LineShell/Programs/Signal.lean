/-!
# Signals

The signals that have names, by number. The numbers above them are the real-time signals.
-/

namespace LineShell.Programs

def signalNames : List (Nat × String) := [
  (1, "HUP"), (2, "INT"), (3, "QUIT"), (4, "ILL"), (5, "TRAP"), (6, "ABRT"), (7, "BUS"),
  (8, "FPE"), (9, "KILL"), (10, "USR1"), (11, "SEGV"), (12, "USR2"), (13, "PIPE"), (14, "ALRM"),
  (15, "TERM"), (16, "STKFLT"), (17, "CHLD"), (18, "CONT"), (19, "STOP"), (20, "TSTP"),
  (21, "TTIN"), (22, "TTOU"), (23, "URG"), (24, "XCPU"), (25, "XFSZ"), (26, "VTALRM"),
  (27, "PROF"), (28, "WINCH"), (29, "IO"), (30, "PWR"), (31, "SYS")]

def highestSignal : Nat := 64

def signalLabel (signal : Nat) : String :=
  ((signalNames.find? (·.1 = signal)).map fun (_, name) => "SIG" ++ name).getD "SIGRT"

def ignoredByDefault : List Nat := [17, 18, 23, 28]

end LineShell.Programs
