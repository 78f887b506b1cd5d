import TapSdk.Library.Run
import TapSdk.Tracker.DiskCache

/-!
# Histories of one cache

The life of a cache file: pushes, clears, and closing it to open it anew, each with the outcomes of
the file operations it performs. A `History` also remembers which messages were accepted since the
last clear. The list is no part of the program; it is what the program is measured against.
-/

namespace TapSdk.Tracker

open Library

inductive CacheOp where
  | push (env : PushEnv) (message : TrackMessageImpl)
  | clear (env : ResetEnv)
  -- The object goes away, and a new one is made on the same path and hash.
  | reopen (config : Option TrackerConfig) (env : InitEnv)

def CacheOp.Succeeds : CacheOp → Prop
  | .push env _ => env.Succeeds
  | .clear env => env.Succeeds
  | .reopen _ env => env.Succeeds

variable (ext : Externals)

/-- One operation, with what it returned, or `false` where it threw. -/
def OpenCache.perform (cache : OpenCache) : CacheOp → Bool × OpenCache
  | .push env message => cache.push ext env message
  | .clear env => cache.reset ext env
  | .reopen config env =>
      OpenCache.openAt ext cache.object.hash cache.object.path config (some cache.disk) env

/-- The states of a cache that was opened on any file and has not thrown. A push that returns
`false` leaves the object in use; a constructor or a `Clear` that throws does not. -/
def cacheSystem (opens : InitEnv → Prop) : System OpenCache CacheOp where
  init cache := ∃ hash path config disk env, opens env
    ∧ OpenCache.openAt ext hash path config disk env = (true, cache)
  step cache op :=
    match op, cache.perform ext op with
    | .push .., (_, next) => some next
    | _, (true, next) => some next
    | _, (false, _) => none

structure History where
  cache : OpenCache
  -- The messages whose push returned `true` since the last clear.
  accepted : List TrackMessageImpl

namespace History

def step (history : History) (op : CacheOp) : Option History :=
  match op, history.cache.perform ext op with
  | .push _ message, (true, next) => some ⟨next, history.accepted ++ [message]⟩
  | .push .., (false, next) => some ⟨next, history.accepted⟩
  | .clear _, (true, next) => some ⟨next, []⟩
  | .reopen .., (true, next) => some ⟨next, history.accepted⟩
  | _, (false, _) => none

/-- The cache is created on a path where there is no file. -/
def start (config : TrackerConfig) (path : Str) (env : InitEnv) : Option History :=
  match OpenCache.openAt ext config.hash path (some config) none env with
  | (true, cache) => some ⟨cache, []⟩
  | (false, _) => none

/-- Any sequence of operations on a new cache; `none` when one of them throws. -/
def run (config : TrackerConfig) (path : Str) (env : InitEnv) (ops : List CacheOp) :
    Option History :=
  (start ext config path env).bind fun history => ops.foldlM (step ext) history

end History

end TapSdk.Tracker
