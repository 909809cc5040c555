-- SUMMARY: Faults that a simulated terminal can be given.

/-!
# Faults

A simulated terminal works without fault unless it is told otherwise. Each fault is independent of
the others; what it does is said where the terminal looks at it.
-/

namespace KeyInjection

structure Faults where
  /-- Reads answer with at most this many bytes. -/
  maxRead : Option Nat := none
  /-- Reads from this offset on fail. -/
  failReadAt : Option UInt32 := none
  failSelect : List String := []
  failWrite : List String := []
  /-- Every import answers with this code. -/
  importError : Option UInt16 := none
  /-- An import leaves key injection mode active. -/
  importKeepsInitialised : Bool := false
  /-- An import puts no keys in place. -/
  importWithoutKeys : Bool := false
  /-- Prompts that contain this text cannot be shown. -/
  failDisplay : Option String := none
  failInit : Bool := false
  /-- Starting key injection mode succeeds and does nothing. -/
  initNotApplied : Bool := false
  /-- Once this many commands have been handled, no more are. -/
  dropResponsesAfter : Option Nat := none
  deriving DecidableEq, Repr

def Faults.none : Faults := {}

def occursIn (pattern : List Char) : List Char → Bool
  | [] => pattern.isEmpty
  | c :: rest => pattern.isPrefixOf (c :: rest) || occursIn pattern rest

end KeyInjection
