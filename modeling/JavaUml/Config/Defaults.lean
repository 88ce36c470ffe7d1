import JavaUml.Config.Setting

/-!
# The settings in force without a configuration file
-/

namespace JavaUml.Config

/-- The base paths of the diagrams. -/
def defaultOutput : Setting :=
  .fields [
    ("class_diagram", .text "output/uml-diagram"),
    ("component_diagram", .text "$\x7boutput.class_diagram\x7d-components"),
    ("sequence_diagram", .text "output/sequence-diagram")]

/-- How sources are analysed. -/
def defaultAnalysis : Setting :=
  .fields [
    ("source_suffix", .text ".java"),
    ("trusted_prefixes", .sequence [.text "java.lang.", .text "java.util."]),
    ("show_progress", .scalar (.bool true))]

/-- How calls are traced. -/
def defaultSequence : Setting :=
  .fields [("max_depth", .whole 5), ("actor", .text "User")]

/-- How images are drawn. -/
def defaultPlantuml : Setting :=
  .fields [
    ("jar_path", .null),
    ("server_url", .null),
    ("timeout", .whole 60),
    ("formats", .sequence [.text "png", .text "svg"])]

/-- What is logged, and where. -/
def defaultLogging : Setting :=
  .fields [("level", .text "INFO"), ("file", .null)]

/-- All sections. -/
def defaultSections : Entries :=
  [(.text "output", defaultOutput),
   (.text "analysis", defaultAnalysis),
   (.text "sequence", defaultSequence),
   (.text "plantuml", defaultPlantuml),
   (.text "logging", defaultLogging)]

end JavaUml.Config
