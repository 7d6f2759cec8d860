/-
# The courses of advertising

As for publication, each operation that starts or stops advertising takes one of a few courses.

| operation | courses |
| --- | --- |
| start | active, malformed, unexported, exported |
| stop | inactive, stopped |
-/

import GattServer.Application.Advertising
import GattServer.Proofs.Trace

namespace GattServer
namespace Application

variable {app app' : Application} {t : List (Exchange Application)} {r : Answer}

/-- The call that exports the advertisement of an application. -/
def exportedAdvertisement (app : Application) : Call :=
  .exportObject advertisementPath (.advertisement ⟨advertisementPath, app.advertised⟩)

/-- **The courses of starting to advertise.** -/
inductive Start (app : Application) (deviceName : String) :
    List (Exchange Application) → Answer → Application → Prop where
  /-- An advertisement is active. -/
  | active (h : app.isAdvertising = true) : Start app deviceName [] (.ok ()) app
  /-- The name is not that of a device. -/
  | malformed {fault : PathFault} (inactive : app.isAdvertising = false)
    (h : ObjectPath.ofText? (deviceStem ++ deviceName) = .error fault) :
    Start app deviceName [] (.error (.malformedPath fault)) app
  /-- The advertisement cannot be exported. -/
  | unexported {device : ObjectPath} {e : Error} (inactive : app.isAdvertising = false)
    (h : ObjectPath.ofText? (deviceStem ++ deviceName) = .ok device) :
    Start app deviceName [⟨app, app.exportedAdvertisement, .error e⟩] (.error e) app
  /-- The advertisement is active, and registered or not. -/
  | exported {device : ObjectPath} {r : Answer} (inactive : app.isAdvertising = false)
    (h : ObjectPath.ofText? (deviceStem ++ deviceName) = .ok device) :
    Start app deviceName
      [⟨app, app.exportedAdvertisement, .ok ()⟩,
        ⟨{ app with advertisement := some ⟨advertisementPath, device⟩ },
          .registerAdvertisement device advertisementPath, r⟩]
      r { app with advertisement := some ⟨advertisementPath, device⟩ }

/-- **Starting to advertise takes one of these courses.** -/
theorem performs_startAdvertising {deviceName : String}
    (h : app.Performs (startAdvertising deviceName) t r app') : Start app deviceName t r app' := by
  rw [startAdvertising, performs_get_bind] at h
  split_ifs at h with hactive
  · obtain ⟨rfl, rfl, rfl⟩ := performs_pure.1 h
    exact .active hactive
  have inactive : app.isAdvertising = false := by simpa using hactive
  cases hd : ObjectPath.ofText? (deviceStem ++ deviceName) with
  | error fault =>
    rw [hd] at h
    obtain ⟨rfl, rfl, rfl⟩ := performs_throw.1 h
    exact .malformed inactive hd
  | ok device =>
    rw [hd] at h
    rcases performs_ask_bind.1 h with ⟨u, rfl, hregister⟩ | ⟨e, rfl, rfl, rfl⟩
    · replace hregister := performs_set_bind.1 hregister
      obtain ⟨rfl, rfl⟩ := performs_ask.1 hregister
      exact .exported inactive hd
    · exact .unexported inactive hd

/-- **The courses of stopping to advertise.** -/
inductive Stop (app : Application) : List (Exchange Application) → Answer → Application → Prop where
  /-- No advertisement is active. -/
  | inactive (h : app.advertisement = none) : Stop app [] (.ok ()) app
  /-- The advertisement is given up, whether or not it can be unregistered and withdrawn. -/
  | stopped {active : ActiveAdvertisement} {r answer : Answer}
    (h : app.advertisement = some active) :
    Stop app
      [⟨{ app with advertisement := none }, .unregisterAdvertisement active.device active.path, r⟩,
        ⟨{ app with advertisement := none }, .withdrawObject active.path .advertisement, answer⟩]
      r { app with advertisement := none }

/-- **Stopping to advertise takes one of these courses.** -/
theorem performs_stopAdvertising (h : app.Performs stopAdvertising t r app') :
    Stop app t r app' := by
  rw [stopAdvertising, performs_get_bind] at h
  cases hactive : app.advertisement with
  | none =>
    rw [hactive] at h
    obtain ⟨rfl, rfl, rfl⟩ := performs_pure.1 h
    exact .inactive hactive
  | some active =>
    rw [hactive] at h
    replace h := performs_set_bind.1 h
    obtain ⟨unregistered, u, rfl, hrest⟩ := performs_attempt_bind.1 h
    rcases performs_bind.1 hrest with ⟨_, t₁, t₂, mid, rfl, h₁, h₂⟩ | ⟨e, hfail, -⟩
    · obtain ⟨answer, rfl, -, rfl⟩ := performs_withdraw.1 h₁
      cases unregistered with
      | ok =>
        obtain ⟨rfl, rfl, rfl⟩ := performs_pure.1 h₂
        exact .stopped hactive
      | error e =>
        obtain ⟨rfl, rfl, rfl⟩ := performs_throw.1 (performs_record_bind.1 h₂)
        exact .stopped hactive
    · obtain ⟨-, -, he, -⟩ := performs_withdraw.1 hfail
      cases he

end Application
end GattServer
