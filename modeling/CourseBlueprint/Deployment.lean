import CourseBlueprint.Deployment.Layers
import CourseBlueprint.Store.Directory

/-!
# Deployments

A deployment is a data directory with a configuration file in it. What the file and the environment
say is made into a rulebook before anything else is done.
-/

namespace CourseBlueprint.Deployment

/-- The name of the configuration file. -/
def configFile : String := "blueprint.toml"

/-- The configuration of a data directory. A file that is there and cannot be read is invalid. -/
def config (vars : Variables) (d : Directory) : Result Config :=
  match d.text? configFile with
  | .ok file => Config.load file vars
  | .error _ => .error .invalidConfigFile

/-- The rulebook of a data directory. -/
def rulebook (vars : Variables) (d : Directory) : Result Rulebook := do
  (← config vars d).rulebook

end CourseBlueprint.Deployment
