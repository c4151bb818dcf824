import VirtualTerminal.Backend.Registry

/-!
# Backend — the built-in backends

The backends that every registry of a Unix system begins with.
-/

namespace VirtualTerminal

namespace Backend

/-- The system's pseudo-terminal, driven directly. -/
def unixPty : Backend :=
  { name := "unix-pty", kind := .nativePty, platforms := Platform.unix, capabilities := .full }

/-- A pseudo-terminal behind a layer that every platform has. -/
def portablePty : Backend :=
  { name := "portable-pty", kind := .emulatedPty, platforms := Platform.all, capabilities := .full }

/-- A process with plain pipes: its terminal cannot be resized, because it has none. -/
def subprocess : Backend :=
  { name := "subprocess", kind := .subprocess, platforms := Platform.all
    capabilities := ⟨false, true, false⟩ }

/-- The built-in backends, in the order of registration. -/
def builtin : List Backend := [unixPty, portablePty, subprocess]

/-- The built-in backend with this name. -/
def builtin? (name : String) : Option Backend := builtin.find? fun b => b.name == name

end Backend

/-- The registry that a Unix system starts with. -/
def Registry.builtin (platform : Platform) : Registry := .ofBackends platform Backend.builtin

end VirtualTerminal
