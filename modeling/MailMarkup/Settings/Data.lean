import MailMarkup.Data.Decode
import MailMarkup.Settings.Basic

/-!
# Settings as data
-/
namespace MailMarkup
open Decode

namespace Severity

def decode : Decoder Severity := choice (all.map fun s => (s.name, s))

def toDatum (s : Severity) : Datum := .text s.name

end Severity

namespace RuleSetting

def decode : Decoder RuleSetting := record do
  let enabled ← field "enabled" (optional flag) none
  let severity ← field "severity" (optional Severity.decode) none
  return { enabled, severity }

def toDatum (s : RuleSetting) : Datum := .record [
  ("enabled", Datum.ofOption .flag s.enabled),
  ("severity", Datum.ofOption Severity.toDatum s.severity)]

end RuleSetting

namespace RuleTable

def decode : Decoder RuleTable := fun l d =>
  (table RuleSetting.decode l d).map fun es => putAll [] es

def toDatum (t : RuleTable) : Datum := .record (t.map fun e => (e.1, e.2.toDatum))

end RuleTable

namespace Clients

def decode : Decoder Clients := record do
  let outlook ← field "outlook" flag true
  let gmail ← field "gmail" flag true
  let appleMail ← field "apple_mail" flag true
  let thunderbird ← field "thunderbird" flag true
  let mobile ← field "mobile" flag true
  return { outlook, gmail, appleMail, thunderbird, mobile }

def toDatum (c : Clients) : Datum := .record [
  ("outlook", .flag c.outlook), ("gmail", .flag c.gmail), ("apple_mail", .flag c.appleMail),
  ("thunderbird", .flag c.thunderbird), ("mobile", .flag c.mobile)]

end Clients

namespace Scoring

def decode : Decoder (Scoring Float) := record do
  let d : Scoring Float := .standard
  let error ← field "error_penalty" real d.error
  let warning ← field "warning_penalty" real d.warning
  let info ← field "info_penalty" real d.info
  let ceiling ← field "max_penalty" real d.ceiling
  return { error, warning, info, ceiling }

def toDatum (s : Scoring Float) : Datum := .record [
  ("error_penalty", .real s.error), ("warning_penalty", .real s.warning),
  ("info_penalty", .real s.info), ("max_penalty", .real s.ceiling)]

end Scoring

namespace Limits

def decode : Decoder Limits := record do
  let d : Limits := {}
  let maxIterations ← field "max_iterations" (natural 64) d.maxIterations
  let maxAttributeIterations ←
    field "max_attribute_iterations" (natural 64) d.maxAttributeIterations
  let maxDepth ← field "max_depth" (natural 64) d.maxDepth
  return { maxIterations, maxAttributeIterations, maxDepth }

def toDatum (l : Limits) : Datum := .record [
  ("max_iterations", .ofNat l.maxIterations),
  ("max_attribute_iterations", .ofNat l.maxAttributeIterations),
  ("max_depth", .ofNat l.maxDepth)]

end Limits

namespace RepairSettings

def decode : Decoder RepairSettings := record do
  let d : RepairSettings := {}
  let maxPasses ← field "max_passes" (natural 64) d.maxPasses
  let growthLimit ← field "growth_limit" real d.growthLimit
  let growthAllowance ← field "growth_allowance_bytes" (natural 64) d.growthAllowance
  let historyCapacity ← field "history_capacity" (natural 64) d.historyCapacity
  return { maxPasses, growthLimit, growthAllowance, historyCapacity }

def toDatum (r : RepairSettings) : Datum := .record [
  ("max_passes", .ofNat r.maxPasses), ("growth_limit", .real r.growthLimit),
  ("growth_allowance_bytes", .ofNat r.growthAllowance),
  ("history_capacity", .ofNat r.historyCapacity)]

end RepairSettings

namespace CacheSettings

def decode : Decoder CacheSettings := record do
  let d : CacheSettings := {}
  let treeCapacity ← field "ast_capacity" (natural 64) d.treeCapacity
  let treeTtl ← field "ast_ttl_seconds" (natural 64) d.treeTtl
  let patternCapacity ← field "pattern_capacity" (natural 64) d.patternCapacity
  let threshold ← field "eviction_threshold" real d.threshold
  let evictFraction ← field "evict_fraction" real d.evictFraction
  let accessWeight ← field "access_weight" real d.accessWeight
  let ageWeight ← field "age_weight" real d.ageWeight
  let sweepInterval ← field "sweep_interval_seconds" (natural 64) d.sweepInterval
  let minScore ← field "min_entry_score" real d.minScore
  let maxResults ← field "traversal_max_results" (natural 64) d.maxResults
  return {
    treeCapacity, treeTtl, patternCapacity, threshold, evictFraction, accessWeight, ageWeight,
    sweepInterval, minScore, maxResults }

def toDatum (c : CacheSettings) : Datum := .record [
  ("ast_capacity", .ofNat c.treeCapacity), ("ast_ttl_seconds", .ofNat c.treeTtl),
  ("pattern_capacity", .ofNat c.patternCapacity), ("eviction_threshold", .real c.threshold),
  ("evict_fraction", .real c.evictFraction), ("access_weight", .real c.accessWeight),
  ("age_weight", .real c.ageWeight), ("sweep_interval_seconds", .ofNat c.sweepInterval),
  ("min_entry_score", .real c.minScore), ("traversal_max_results", .ofNat c.maxResults)]

end CacheSettings

namespace Thresholds

def decode : Decoder Thresholds := record do
  let d : Thresholds := {}
  let maxTableDepth ← field "max_table_depth" (natural 64) d.maxTableDepth
  let maxWidth ← field "max_width_px" (natural 32) d.maxWidth
  let clipBytes ← field "gmail_clip_bytes" (natural 64) d.clipBytes
  let minFontSize ← field "min_font_size_px" (natural 32) d.minFontSize
  return { maxTableDepth, maxWidth, clipBytes, minFontSize }

def toDatum (t : Thresholds) : Datum := .record [
  ("max_table_depth", .ofNat t.maxTableDepth), ("max_width_px", .ofNat t.maxWidth),
  ("gmail_clip_bytes", .ofNat t.clipBytes), ("min_font_size_px", .ofNat t.minFontSize)]

end Thresholds

namespace Settings

def decode : Decoder Settings := record do
  let d : Settings := {}
  let rules ← field "rules" RuleTable.decode []
  let clients ← field "clients" Clients.decode {}
  let strict ← field "strict_mode" flag d.strict
  let maxHtmlSize ← field "max_html_size" (natural 64) d.maxHtmlSize
  let maxFileSize ← field "max_file_size" (natural 64) d.maxFileSize
  let accessibility ← field "check_accessibility" flag d.accessibility
  let performance ← field "check_performance" flag d.performance
  let bestPractices ← field "check_best_practices" flag d.bestPractices
  let scoring ← field "scoring" Scoring.decode d.scoring
  let limits ← field "parser" Limits.decode {}
  let repair ← field "autofix" RepairSettings.decode {}
  let cache ← field "cache" CacheSettings.decode {}
  let thresholds ← field "thresholds" Thresholds.decode {}
  return {
    rules, clients, strict, maxHtmlSize, maxFileSize, accessibility, performance, bestPractices,
    scoring, limits, repair, cache, thresholds }

def toDatum (s : Settings) : Datum := .record [
  ("rules", s.rules.toDatum), ("clients", s.clients.toDatum), ("strict_mode", .flag s.strict),
  ("max_html_size", .ofNat s.maxHtmlSize), ("max_file_size", .ofNat s.maxFileSize),
  ("check_accessibility", .flag s.accessibility), ("check_performance", .flag s.performance),
  ("check_best_practices", .flag s.bestPractices), ("scoring", s.scoring.toDatum),
  ("parser", s.limits.toDatum), ("autofix", s.repair.toDatum), ("cache", s.cache.toDatum),
  ("thresholds", s.thresholds.toDatum)]

end Settings

namespace Patch

def decode : Decoder Patch := record do
  let rules ← field "rules" (optional RuleTable.decode) none
  let clients ← field "clients" (optional Clients.decode) none
  let strict ← field "strict_mode" (optional flag) none
  let maxHtmlSize ← field "max_html_size" (optional (natural 64)) none
  let maxFileSize ← field "max_file_size" (optional (natural 64)) none
  let accessibility ← field "check_accessibility" (optional flag) none
  let performance ← field "check_performance" (optional flag) none
  let bestPractices ← field "check_best_practices" (optional flag) none
  let scoring ← field "scoring" (optional Scoring.decode) none
  let limits ← field "parser" (optional Limits.decode) none
  let repair ← field "autofix" (optional RepairSettings.decode) none
  let cache ← field "cache" (optional CacheSettings.decode) none
  let thresholds ← field "thresholds" (optional Thresholds.decode) none
  return {
    rules, clients, strict, maxHtmlSize, maxFileSize, accessibility, performance, bestPractices,
    scoring, limits, repair, cache, thresholds }

end Patch
end MailMarkup
