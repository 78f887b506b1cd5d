import TapSdk.Login.TapLogin

/-!
# The clock of the login

`TimeSecNow` of `login/tap_login.cpp`, and the online clock of `base/timer.cpp` behind it: the local
clock, moved by what `SetOnlineTime` was called with. Another component may call `SetOnlineTime` at
any time, so that each reading of the loop in `LoginAsync` comes with the clock as it then was.
-/

namespace TapSdk.Login

open Library

structure OnlineClock where
  onlineTimeSet : Bool
  onlineTime : Int64
  timeEpSinceOnline : Int64

namespace OnlineClock

/-- A clock that has not been set. -/
def unset : OnlineClock := ⟨false, 0, 0⟩

def setOnlineTime (ms localNow : Int64) : OnlineClock := ⟨true, ms, localNow⟩

/-- In milliseconds, as the local clock is. -/
def onlineTimestamp (clock : OnlineClock) (localNow : Int64) : Int64 :=
  if clock.onlineTimeSet then localNow - clock.timeEpSinceOnline + clock.onlineTime else localNow

end OnlineClock

structure Reading where
  localNow : Int64
  clock : OnlineClock

def Reading.online (reading : Reading) : Int64 := reading.clock.onlineTimestamp reading.localNow

def Reading.timeSecNow (reading : Reading) : UInt64 := (reading.online / 1000).toUInt64

/-- The condition of the loop once, with what follows when it holds. -/
structure Check where
  reading : Reading
  token : Bytes → Option Net.RespData
  canceled : Bool

def Check.round (check : Check) : Round := ⟨check.reading.timeSecNow, check.token, check.canceled⟩

/-- The loop of `LoginAsync`, for the clock that it reads. -/
def pollState (client : Net.TapHttpClient) (forms : Bytes) (start : Reading) (expiresIn : Int64)
    (checks : List Check) : Option (Net.Result AccessToken) :=
  checkState client forms start.timeSecNow expiresIn.toUInt64 (checks.map Check.round)

/-- After a request the loop goes on when no token came and the window has not been cancelled. -/
def Check.goesOn (client : Net.TapHttpClient) (forms : Bytes) (check : Check) : Bool :=
  match check.token forms with
  | none => false
  | some value =>
      match client.postAsync AccessToken.construct value with
      | .ok _ => false
      | .error _ => !check.canceled

/-- The checks that the loop makes, and whether it sends a request after them. -/
def checksMade (client : Net.TapHttpClient) (forms : Bytes) (start : Reading) (expiresIn : Int64) :
    List Check → List (Check × Bool)
  | [] => []
  | check :: rest =>
      if check.reading.timeSecNow - start.timeSecNow < expiresIn.toUInt64 then
        (check, true) ::
          if check.goesOn client forms then checksMade client forms start expiresIn rest else []
      else [(check, false)]

end TapSdk.Login
