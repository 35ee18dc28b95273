/-! # Generator settings

What the generated code says about itself besides the parameters. -/

namespace PointDriver

/-- The version that generated code names as its generator's. -/
def generatorVersion : String := "0.1.0"

/-- The name a driver has when none is chosen. -/
def defaultProgram : String := "sweep-driver"

/-- The runtime a driver uses when none is chosen. -/
def defaultLifecycle : String := "sweeprun::StandardLifecycle::default()"

/-- The dependency on the runtime when none is chosen. -/
def defaultDependency : String := "sweeprun = \"" ++ generatorVersion ++ "\""

/-- What a driver is called, and the expression that makes its runtime. -/
structure DriverSettings where
  program : String
  lifecycle : String
  deriving DecidableEq, Repr

namespace DriverSettings

/-- The settings when nothing is chosen. -/
def standard : DriverSettings := ⟨defaultProgram, defaultLifecycle⟩

end DriverSettings

end PointDriver
