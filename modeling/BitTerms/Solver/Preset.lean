/-!
# Presets

How to start the solvers that are known to speak the commands of a session.
-/

namespace BitTerms

structure Preset where
  program : String
  arguments : List String
  /-- The file that records the commands, if any. -/
  recording : Option String := none
  /-- The number of levels that the commands for assertion levels have to name, for a solver that
  asks for one. -/
  levels : Option Nat := none

namespace Preset

def z3 : Preset where
  program := "z3"
  arguments := ["-nw", "-smt2", "-in"]

def cvc5 : Preset where
  program := "cvc5"
  arguments := ["--lang=smt2", "--incremental", "--produce-models"]

def bitwuzla : Preset where
  program := "bitwuzla"
  arguments := ["--produce-models"]
  levels := some 1

def boolector : Preset where
  program := "boolector"
  arguments := ["--smt2", "-m", "--output-format=smt2", "--no-exit-codes", "--incremental"]
  levels := some 1

def named? (program : String) : Option Preset :=
  [z3, cvc5, bitwuzla, boolector].find? (·.program = program)

end Preset

end BitTerms
