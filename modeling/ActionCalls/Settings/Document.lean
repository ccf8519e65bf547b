import ActionCalls.Json.Decode
import ActionCalls.Settings.Basic

/-!
# Settings as structured values

Settings are decoded from a value in which every part and every field has its default. Written as
a value, the blacklist file is left out when there is none.
-/

namespace ActionCalls

open Json

def AnalysisSettings.decode (form : ArrayForm) : Decoder AnalysisSettings :=
  let default : AnalysisSettings := {}
  (RecordDecoder.pure AnalysisSettings.mk
    |>.withDefault "source_extension" Decoder.string default.sourceExtension
    |>.withDefault "action_suffix" Decoder.string default.actionSuffix
    |>.withDefault "annotation_lookback" Decoder.count default.annotationLookback
    |>.withDefault "follow_links" Decoder.bool default.followLinks
    |>.withDefault "builtin_methods" (Decoder.list Decoder.string) default.builtinMethods
    |>.withDefault "accessor_prefixes" (Decoder.list Decoder.string)
        default.accessorPrefixes).decode "struct AnalysisConfig" form

def OutputSettings.decode (form : ArrayForm) : Decoder OutputSettings :=
  let default : OutputSettings := {}
  (RecordDecoder.pure OutputSettings.mk
    |>.withDefault "path" Decoder.path default.path
    |>.withDefault "pretty" Decoder.bool default.pretty).decode "struct OutputConfig" form

def BlacklistSettings.decode (form : ArrayForm) : Decoder BlacklistSettings :=
  (RecordDecoder.pure BlacklistSettings.mk
    |>.withDefault "file" (Decoder.optional Decoder.path) none).decode
      "struct BlacklistConfig" form

/-- Decodes settings; `form` says how the parts that are written as arrays may look. -/
def Settings.decode (form : ArrayForm) : Decoder Settings :=
  (RecordDecoder.pure Settings.mk
    |>.withDefault "analysis" (AnalysisSettings.decode form) {}
    |>.withDefault "output" (OutputSettings.decode form) {}
    |>.withDefault "blacklist" (BlacklistSettings.decode form) {}).decode "struct Config" form

/-- In a structured value, an array may leave fields out at its end. -/
def Settings.arrayForm : ArrayForm := ⟨true, false⟩

/-- Settings as a value. -/
def Settings.toJson (s : Settings) : Json :=
  .object
    [("analysis", .object
      [("source_extension", .string s.analysis.sourceExtension),
       ("action_suffix", .string s.analysis.actionSuffix),
       ("annotation_lookback", .ofNat s.analysis.annotationLookback),
       ("follow_links", .bool s.analysis.followLinks),
       ("builtin_methods", .ofStrings s.analysis.builtinMethods),
       ("accessor_prefixes", .ofStrings s.analysis.accessorPrefixes)]),
     ("output", .object
      [("path", .string s.output.path), ("pretty", .bool s.output.pretty)]),
     ("blacklist", .object
      ((s.blacklist.file.map fun file => [("file", .string file)]).getD []))]

end ActionCalls
