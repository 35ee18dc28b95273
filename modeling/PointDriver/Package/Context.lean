import PointDriver.Declaration.Basic
import PointDriver.Json.Basic
import PointDriver.Package.Settings

/-! # Template contexts

The values that the templates of a driver and of a manifest can print. -/

namespace PointDriver.Package

/-- The names of a declaration in one line. -/
def parameterList (d : Declaration) : String :=
  if d.names.isEmpty then "(no parameters)" else ", ".intercalate d.names

/-- The values for a driver's source. -/
def driverContext (d : Declaration) (s : DriverSettings) : Json :=
  .object [("generator_version", .text generatorVersion), ("program", .text s.program),
    ("lifecycle", .text s.lifecycle), ("parameters", .array (d.names.map .text)),
    ("parameter_list", .text (parameterList d))]

/-- The values for a package manifest. -/
def manifestContext (package : String) (d : Declaration) (s : DriverSettings)
    (dependency : String) : Json :=
  .object [("package", .text package), ("program", .text s.program),
    ("parameter_list", .text (parameterList d)), ("runtime_dependency", .text dependency)]

end PointDriver.Package
