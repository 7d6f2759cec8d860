/-
# Advertising

An application has at most one advertisement.  It is exported before it is registered with a
device, and it stays active if the registration fails, so that stopping withdraws it in any case.

All advertisements are exported at the same path, whichever application they belong to: a bus that
refuses to export two objects of one kind at one path has at most one of them.

The advertisement offers the live services that are marked as advertised, for two seconds at a time
and one minute in all.
-/

import GattServer.Application.Operation

namespace GattServer

/-- The path of advertisements: `/org/bluez/advertisement/0`. -/
def advertisementPath : ObjectPath where
  segments :=
    [⟨"org", by decide, by decide⟩, ⟨"bluez", by decide, by decide⟩,
      ⟨"advertisement", by decide, by decide⟩, ⟨"0", by decide, by decide⟩]

/-- What the paths of devices start with. -/
def deviceStem : String := "/org/bluez/"

namespace Application

/-- What an application advertises. -/
def advertised (app : Application) : AdvertisementProperties where
  type := .peripheral
  serviceUuids := (app.services.filter (·.advertised)).map (·.properties.uuid)
  localName := app.profile.settings.localName
  duration := 2
  timeout := 60

/-- Exports an advertisement and registers it with a device, given by its name.  Where an
advertisement is active there is nothing to do. -/
def startAdvertising (deviceName : String) : Operation Unit := do
  let app ← get
  if app.isAdvertising then pure ()
  else
    match ObjectPath.ofText? (deviceStem ++ deviceName) with
    | .error fault => throw (.malformedPath fault)
    | .ok device => do
      ask (.exportObject advertisementPath (.advertisement ⟨advertisementPath, app.advertised⟩))
      set { app with advertisement := some ⟨advertisementPath, device⟩ }
      ask (.registerAdvertisement device advertisementPath)

/-- Unregisters the advertisement and withdraws it, even if it could not be unregistered; that
failure ends the operation afterwards.  Where no advertisement is active there is nothing to do. -/
def stopAdvertising : Operation Unit := do
  let app ← get
  match app.advertisement with
  | none => pure ()
  | some active => do
    set { app with advertisement := none }
    let answer ← attempt (.unregisterAdvertisement active.device active.path)
    withdraw active.path .advertisement
    match answer with
    | .ok () => pure ()
    | .error e => do
      record (.stillRegistered active.device e)
      throw e

end Application
end GattServer
