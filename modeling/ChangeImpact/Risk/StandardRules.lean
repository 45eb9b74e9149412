import ChangeImpact.Risk.Rules

/-!
# The standard rules

The rule table that holds where a repository names none of its own.
-/

namespace ChangeImpact.Risk

def standardPathRules : List PathRule := [
  { name := "schema"
    area := "Data schema"
    fragments := ["schema", ".prisma", ".graphql", ".gql", ".proto", ".avsc"]
    weight := 3
    critical := true
    findings := [
      { category := .breakingChange
        message := "Schema changed in {files}: readers {consumers} may break on the new shape."
        fallback := some "Schema changed in {files}: check every reader of the old shape." },
      { category := .dataIntegrity
        message := "Validate existing records against the updated schema in {files}." }] },
  { name := "database"
    area := "Database"
    fragments := ["migration", "migrate", "/db/", "database", "/models/", "model.", "models.",
      "repository", "/dao/", ".sql"]
    weight := 3
    critical := true
    findings := [
      { category := .dataIntegrity
        message := "Database layer touched ({files}): confirm migrations are reversible " ++
          "and existing rows survive the change." },
      { category := .performance
        message := "Query or model changes in {files} can shift query plans; check indexes " ++
          "and N+1 access patterns." }] },
  { name := "auth"
    area := "Authorization"
    fragments := ["auth", "permission", "role", "rbac", "acl", "policy", "policies", "login",
      "session", "token", "guard"]
    weight := 4
    critical := true
    findings := [
      { category := .security
        message := "Authorization logic changed in {files}: re-test role-based access for " ++
          "every role, including denied paths." },
      { category := .regression
        message := "Sign-in and session flows that go through {files} need regression " ++
          "testing; consumers: {consumers}."
        fallback := some ("Sign-in and session flows that go through {files} need " ++
          "regression testing.") }] },
  { name := "api"
    area := "API"
    fragments := ["/api/", "api/", "graphql", "routes", "router", "controller", "endpoint",
      "handler", "resolver"]
    weight := 3
    findings := [
      { category := .breakingChange
        message := "API surface changed in {files}: callers {consumers} and external " ++
          "clients may break."
        fallback := some "API surface changed in {files}: external clients may break." },
      { category := .possiblyMissed
        message := "Check contract tests and client code for {files}." }] },
  { name := "ui"
    area := "UI components"
    fragments := ["components/", "/ui/", "pages/", "views/", "layouts/", ".vue", ".svelte",
      ".jsx", ".tsx", ".css", ".scss"]
    weight := 1
    findings := [
      { category := .regression
        message := "UI changed in {files}: check rendering where it is used ({consumers})."
        fallback := some "UI changed in {files}: check rendering and responsive layouts." }] },
  { name := "state"
    area := "State management"
    fragments := ["store", "redux", "reducer", "slice", "/state/", "context/", "zustand", "vuex",
      "pinia", "atoms"]
    weight := 2
    findings := [
      { category := .regression
        message := "Shared state changed in {files}: subscribers {consumers} may see " ++
          "different values."
        fallback := some ("Shared state changed in {files}: subscribers may see " ++
          "different values.") }] },
  { name := "utility"
    area := "Shared utilities"
    fragments := ["util", "helper", "/lib/", "common/", "shared/"]
    weight := 2
    findings := [
      { category := .regression
        message := "{file} is imported by {consumers}: re-run their tests."
        perFile := true
        fallback := some ("{file} changed and has no in-repo importers: check dynamic " ++
          "or external usage.") }] },
  { name := "config"
    area := "Configuration"
    fragments := ["config", "settings", ".env", ".yml", ".yaml", ".toml", ".ini", "package.json",
      "tsconfig", "dockerfile", "docker-compose"]
    weight := 2
    findings := [
      { category := .possiblyMissed
        message := "Configuration changed ({files}): confirm every environment has " ++
          "matching values." },
      { category := .performance
        message := "Build or runtime settings in {files} may change startup and bundle " ++
          "behaviour." }] }]

def standardThresholdRules : List ThresholdRule := [
  { name := "large_change"
    metric := "total_lines"
    threshold := 500
    weight := 3
    findings := [
      { category := .regression
        message := "Large change: {total_lines} lines across {files_changed} files. " ++
          "Consider splitting it for review." }] },
  { name := "many_files"
    metric := "files_changed"
    threshold := 20
    weight := 2
    findings := [
      { category := .possiblyMissed
        message := "{files_changed} files changed: cross-cutting edits are easy to miss " ++
          "in review." }] },
  { name := "large_deletions"
    metric := "net_deletions"
    threshold := 50
    weight := 2
    findings := [
      { category := .breakingChange
        message := "{lines_deleted} lines deleted against {lines_added} added: removed " ++
          "code may still be used by {consumers}."
        fallback := some ("{lines_deleted} lines deleted against {lines_added} added: " ++
          "check for remaining references to removed code.") }] },
  { name := "wide_impact"
    metric := "affected_files"
    threshold := 15
    weight := 2
    findings := [
      { category := .regression
        message := "The change reaches {value} files beyond the changed ones through imports." }] },
  { name := "untested_change"
    metric := "uncovered_percent"
    threshold := 50
    weight := 1
    findings := [
      { category := .possiblyMissed
        message := "No related tests found for {missing}." }] }]

def standardRules : RuleTable :=
  { pathRules := standardPathRules, thresholdRules := standardThresholdRules }

end ChangeImpact.Risk
