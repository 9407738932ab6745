import Convergence.Reconcile.Deactivation
import Convergence.Reconcile.World
import Convergence.Seed
/-!
# The application

Store, bus, backends and handlers put together as a configuration says, and integrations created
from seeds.
-/

namespace Convergence

namespace Application

/-- The handlers of the application. -/
def handlers : List Handler := [.activate Project.generator, .deactivate]

/-- The environment with the backends of a configuration. -/
def environment (c : BackendConfig) (secretAt : Nat → String) : Environment :=
  { provisioner :=
      { api := c.provisionerApi, space := c.space, autoReady := c.autoReady }
    sourceControl := { baseUrl := c.gitBaseUrl }
    secretAt }

/-- Everything put together, with no controller started.  The clock, the secrets and the ids come
from outside. -/
def assemble (config : AppConfig) (clock : Timestamp) (secretAt idAt : Nat → String) :
    Except AppError World :=
  match Registry.ofHandlers handlers with
  | .error e => .error (.registerHandlers e)
  | .ok registry =>
    .ok
      { site := { environment := environment config.backends secretAt, clock, idAt }
        registry }

/-- Creates the integrations of seeds until one cannot be created. -/
def plant : List Seed → Site → Except AppError Unit × Site
  | [], site => (.ok (), site)
  | s :: rest, site =>
    let i := s.integration (site.idAt site.issued) site.clock
    let issued := if s.id.isNone then site.issued + 1 else site.issued
    match site.store.create i with
    | (.error e, store) => (.error (.seed e), { site with store, issued })
    | (.ok _, store) => plant rest { site with store, issued }

/-- Creates the integrations of seeds; gives their number. -/
def seed (w : World) (seeds : List Seed) : Except AppError Nat × World :=
  match plant seeds w.site with
  | (.error e, site) => (.error e, { w with site })
  | (.ok (), site) => (.ok seeds.length, { w with site })

/-- Starts the controller of the application. -/
def start (w : World) (config : AppConfig) : Except AppError Nat × World :=
  match w.start config.controller with
  | (.error e, w) => (.error (.startController e), w)
  | (.ok k, w) => (.ok k, w)

end Application

end Convergence
