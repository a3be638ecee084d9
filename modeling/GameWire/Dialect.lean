/-!
# Dialects

A dialect is the wire layout of one client generation. All dialects but the raw one resolve to a
layout family, and those can be stored in capture files under a one-byte identifier.
-/

namespace GameWire

/-- The wire layout of one client generation. -/
inductive Dialect where
  /-- The New Genesis client. -/
  | ngs
  /-- The client before New Genesis. -/
  | classic
  /-- The global client. -/
  | na
  /-- The Japanese client. -/
  | jp
  /-- The handheld client. -/
  | vita
  /-- Passes frames through without looking at them. -/
  | raw
  deriving DecidableEq, Repr

inductive LayoutFamily where
  | base
  | ngs
  | blank
  deriving DecidableEq, Repr

namespace Dialect

/-- The dialect assumed when none is named. -/
instance : Inhabited Dialect := ⟨classic⟩

def all : List Dialect := [ngs, classic, na, jp, vita, raw]

theorem mem_all (d : Dialect) : d ∈ all := by cases d <;> decide

def family : Dialect → LayoutFamily
  | ngs => .ngs
  | classic | na | jp | vita => .base
  | raw => .blank

/-- Whether frames pass through untouched and are never encrypted. -/
def isRaw (d : Dialect) : Bool := d == raw

def name : Dialect → String
  | ngs => "NGS"
  | classic => "Classic"
  | na => "NA"
  | jp => "JP"
  | vita => "Vita"
  | raw => "Raw"

def key : Dialect → String
  | ngs => "ngs"
  | classic => "classic"
  | na => "na"
  | jp => "jp"
  | vita => "vita"
  | raw => "raw"

/-- The dialect that a configuration file names: its key or its shown name, in exactly that case. -/
def ofKey? (s : String) : Option Dialect :=
  all.find? fun d => d.key == s || d.name == s

theorem ofKey?_key (d : Dialect) : ofKey? d.key = some d := by cases d <;> decide

/-- The identifier stored in capture file headers; the raw dialect has none. -/
def captureId? : Dialect → Option UInt8
  | classic => some 0
  | ngs => some 1
  | na => some 2
  | jp => some 3
  | vita => some 4
  | raw => none

def ofCaptureId? (id : UInt8) : Option Dialect :=
  all.find? fun d => d.captureId? == some id

theorem ofCaptureId?_eq_some_iff {id : UInt8} {d : Dialect} :
    ofCaptureId? id = some d ↔ d.captureId? = some id := by
  constructor
  · intro h
    simpa using List.find?_some h
  · intro h
    cases d <;> simp only [captureId?, Option.some.injEq, reduceCtorEq] at h <;> subst h <;> rfl

end Dialect

end GameWire
