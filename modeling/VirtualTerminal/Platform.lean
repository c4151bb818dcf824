/-!
# Platform — operating systems

The operating systems that backends tell apart.
-/

namespace VirtualTerminal

/-- An operating system. -/
inductive Platform where
  | linux
  | macos
  | windows
  /-- Linux inside Windows. -/
  | wsl
  /-- Any other system of the Unix family. -/
  | other
deriving DecidableEq, Repr, Inhabited

namespace Platform

/-- Every platform. -/
def all : List Platform := [.linux, .macos, .windows, .wsl, .other]

/-- The platform belongs to the Unix family. -/
def isUnix : Platform → Bool
  | .windows => false
  | _ => true

/-- The platforms of the Unix family. -/
def unix : List Platform := all.filter isUnix

/-- The name shown to people. -/
def name : Platform → String
  | .linux => "Linux"
  | .macos => "macOS"
  | .windows => "Windows"
  | .wsl => "WSL"
  | .other => "Other"

/-- The name used in data. -/
def tag : Platform → String
  | .linux => "linux"
  | .macos => "macos"
  | .windows => "windows"
  | .wsl => "wsl"
  | .other => "other"

/-- The platform with this name in data. -/
def ofTag? (tag : String) : Option Platform := all.find? fun p => p.tag == tag

end Platform

end VirtualTerminal
