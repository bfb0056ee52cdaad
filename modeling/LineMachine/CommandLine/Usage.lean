/-
**What the command line says about itself.**

Main definitions:

* `LineMachine.Usage.synopsis` — how the arguments are written;
* `LineMachine.Usage.help` — the synopsis with an explanation of each argument;
* `LineMachine.Usage.complain` — what is said of wrong arguments.
-/

import LineMachine.CommandLine.Options

set_option relaxedAutoImplicit false
set_option autoImplicit false

namespace LineMachine.Usage

/-- The name of the program. -/
def program : String := "forthytwo"

/-- Lines of text, each with its end. -/
def unlines (ls : List String) : String := String.join (ls.map (· ++ "\n"))

/-- **How the arguments are written.** -/
def synopsis : String := unlines
  ["usage: forthytwo [-h] [--start START] [--push N] [--max-steps MAX_STEPS]",
   "                 [--test TESTFILE] [--trace]",
   "                 file"]

/-- **The synopsis with an explanation of each argument.** -/
def help : String := synopsis ++ unlines
  ["",
   "forthytwo command line interpreter",
   "",
   "positional arguments:",
   "  file                  forthytwo source file",
   "",
   "options:",
   "  -h, --help            show this help message and exit",
   "  --start START         start processing at line (default: 21)",
   "  --push N              push N to the data stack, can be repeated",
   "  --max-steps MAX_STEPS",
   "                        stop after this many steps",
   "  --test TESTFILE       run the test cases in TESTFILE against the program",
   "  --trace               log calls and returns to stderr"]

/-- **What is said of wrong arguments.** -/
def complain (p : Options.Problem) : String :=
  s!"{synopsis}{program}: error: {p.message}\n"

end LineMachine.Usage
