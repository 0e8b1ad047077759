import LogPipeline.Plugin

namespace LogPipeline

/-!
# Configuration documents

A document holds the environment, the included files, the service properties
and the lists of plugin instances.  Parsers and multiline parsers may stand at
two places, at the root and under the pipeline.
-/

/-- The plugin instances declared under the pipeline. -/
structure Pipeline where
  inputs : List Plugin := []
  parsers : List Plugin := []
  multilineParsers : List Plugin := []
  filters : List Plugin := []
  outputs : List Plugin := []
deriving Inhabited

/-- A configuration document. -/
structure Document where
  environment : Properties := []
  includes : List String := []
  service : Properties := []
  customs : List Plugin := []
  pipeline : Pipeline := {}
  parsers : List Plugin := []
  multilineParsers : List Plugin := []
deriving Inhabited

end LogPipeline
