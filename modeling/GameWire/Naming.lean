import GameWire.Cipher.SessionCipher
import GameWire.Error
import GameWire.Serial

/-!
# Names and numbers as people type them

Dialects, serialized formats and cipher suites can be named in any case, and some of them by a
second name. Only ASCII letters have a case here. Unsigned numbers are decimal digits, before which
a plus sign and zeros may stand.
-/

namespace GameWire

/-- The text with its ASCII letters in lower case. -/
def lowerCase (s : String) : String :=
  s.map Char.toLower

def Dialect.ofName (s : String) : Except ProtocolError Dialect :=
  match all.find? fun d => lowerCase d.name == lowerCase s with
  | some d => .ok d
  | none => .error (.config (.unknownDialect s))

def SerialFormat.ofName (s : String) : Except ProtocolError SerialFormat :=
  match all.find? fun f => f.key == lowerCase s || lowerCase f.name == lowerCase s with
  | some f => .ok f
  | none => .error (.config (.unknownFormat s))

def CipherSuite.shortName : CipherSuite → String
  | xchacha => "xchacha"
  | aes => "aes"

/-- The cipher suite with the given name, in which hyphens and underscores do not count. -/
def CipherSuite.ofName (s : String) : Except ProtocolError CipherSuite :=
  let bare := String.ofList ((lowerCase s).toList.filter fun c => c ≠ '-' ∧ c ≠ '_')
  match all.find? fun c => c.key == bare || c.shortName == bare with
  | some c => .ok c
  | none => .error (.config (.unknownCipher s))

/-- The number that a text spells, if it is below 2⁶⁴. -/
def unsigned? (s : String) : Option Nat :=
  let ds := match s.toList with
    | '+' :: cs => cs
    | cs => cs
  if ds.isEmpty || ds.any (fun c => !c.isDigit) then none
  else
    let n := ds.foldl (fun n c => n * 10 + (c.toNat - 0x30)) 0
    if n < 2 ^ 64 then some n else none

end GameWire
