import TapSdk.Library.Run

/-!
# The stream of a file

`Open`, `Close`, `Size`, `Resize`, `Read`, `Write` and the destructor of `base/file.cpp`, and
`Destroy` of `tracker/cache.cpp`, as far as they concern the stream. The streams that `fopen` gives
are numbered. The system decides whether a call succeeds; a call that needs a stream and has a null
pointer ends the process.
-/

namespace TapSdk.FileStream

open Library

/-- The members of `File`. -/
structure File where
  file : Option Nat
  curSize : Nat
  deriving DecidableEq

namespace File

def new : File := ⟨none, 0⟩

def isOpen (file : File) : Bool := file.file.isSome

end File

/-- What `Open` finds after it has closed the file. -/
structure OpenEnv where
  -- What `fclose` returns is zero.
  closes : Bool
  -- Looking for the file or creating its directory throws.
  throws : Bool
  opens : Bool

inductive Op where
  | openFile (env : OpenEnv)
  | close (closes : Bool)
  -- The size by the name of the file, unless it throws.
  | size (found : Option Nat)
  | resize (newSize : Nat) (truncates : Bool)
  | read
  | write
  -- `DiskCache::Destroy`.
  | destroy (closes : Bool)
  | destruct (closes : Bool)

/-- What `Close` was called on, what it returned, and whether there is nothing left to close. -/
structure CloseReturn where
  returned : Bool
  succeeded : Bool
  deriving DecidableEq

structure DestroyReturn where
  closed : Bool
  deleted : Bool
  deriving DecidableEq

/-- A file and what has happened to its streams. -/
structure World where
  file : File
  alive : Bool
  -- How many streams have been opened, and which have been passed to `fclose`.
  streams : Nat
  closed : List Nat
  -- The stream of the last successful `Open`, until the next `Close`.
  current : Option Nat
  -- Streams used after they had been closed.
  staleUses : List Nat
  closeReturns : List CloseReturn
  destroyReturns : List DestroyReturn

namespace World

def new : World := ⟨File.new, true, 0, [], none, [], [], []⟩

/-- `Close`: the pointer stays, and what `fclose` returns, zero for success, is taken for a truth
value. -/
def close (world : World) (closes : Bool) : CloseReturn × World :=
  match world.file.file with
  | none => (⟨true, true⟩, { world with current := none })
  | some stream =>
      (⟨!closes, closes⟩, { world with
        file := { world.file with curSize := 0 }
        closed := stream :: world.closed
        current := none })

def openFile (world : World) (env : OpenEnv) : World :=
  let shut := (world.close env.closes).2
  if env.throws then shut
  else if env.opens then
    { shut with
      file := { shut.file with file := some shut.streams }
      streams := shut.streams + 1
      current := some shut.streams }
  else { shut with file := { shut.file with file := none } }

/-- A call that is given the stream. -/
def use (world : World) (stream : Nat) : World :=
  if stream ∈ world.closed then { world with staleUses := stream :: world.staleUses } else world

def size (world : World) (found : Option Nat) : World :=
  if world.file.curSize ≠ 0 then world
  else
    match found with
    | none => world
    | some size =>
        if world.file.isOpen then { world with file := { world.file with curSize := size } }
        else world

def resize (world : World) (newSize : Nat) (truncates : Bool) : World :=
  match world.file.file with
  | none => world
  | some stream =>
      if truncates then
        { world.use stream with file := { world.file with curSize := newSize } }
      else world.use stream

/-- `Read` and `Write` do not ask whether the file is open. -/
def transfer (world : World) : Option World := world.file.file.map world.use

def closeFile (world : World) (closes : Bool) : World :=
  { (world.close closes).2 with closeReturns := (world.close closes).1 :: world.closeReturns }

/-- The file is deleted when `Close` has returned true. -/
def destroy (world : World) (closes : Bool) : World :=
  let returned := (world.close closes).1
  { world.closeFile closes with
    destroyReturns := ⟨returned.succeeded, returned.returned⟩ :: world.destroyReturns }

def destruct (world : World) (closes : Bool) : World :=
  { (world.close closes).2 with alive := false }

def step (world : World) (op : Op) : Option World :=
  if world.alive then
    match op with
    | .openFile env => some (world.openFile env)
    | .close closes => some (world.closeFile closes)
    | .size found => some (world.size found)
    | .resize newSize truncates => some (world.resize newSize truncates)
    | .read | .write => world.transfer
    | .destroy closes => some (world.destroy closes)
    | .destruct closes => some (world.destruct closes)
  else none

end World

def system : System World Op where
  init world := world = World.new
  step := World.step

end TapSdk.FileStream
