import FilterQuery.Config.Load
import FilterQuery.Expression.Parse
import FilterQuery.Filter.Json
import FilterQuery.Session.Command
import FilterQuery.Sql.Compile
import FilterQuery.Sql.Render

/-!
Sessions: a configuration, aliases and a root entity, and what a session answers to its lines.
-/
namespace FilterQuery

open Text

/-- The state of a session. -/
structure Session where
  config : Config
  aliases : Registry
  root : String
deriving DecidableEq

def ReferenceKind.title : ReferenceKind → String
  | direct => "Direct"
  | aliased => "Alias"
  | mainAlias => "MainAlias"
  | nested => "Nested"

namespace Session

def helpLines : List String := [
  "命令:",
  "  alias <名称> <关联路径>   注册别名, 例如: alias m manufacturer",
  "  main <名称>               设置主实体别名",
  "  aliases                   显示当前别名",
  "  clear                     清空别名",
  "  entity <实体名>           切换根实体",
  "  help                      显示帮助",
  "  quit                      退出",
  "其他输入按过滤表达式解析, 例如: stock > 10 AND m.name LIKE 'A%'"]

def compiler (s : Session) : Compiler := ⟨s.config.entities, s.aliases, s.config.mapping⟩

def complaint (message : String) : String := "✗ " ++ message

def explain (s : Session) (fault : Fault) : String := complaint (fault.message s.config.format)

def showField (field : ResolvedField) : String :=
  "  " ++ field.written ++ " -> " ++ field.path ++ " (" ++ field.kind.title ++ ")"

/-- What is shown for an expression: the filter it is read as, and the paths and the statement that
come of it. -/
def evaluate (s : Session) (expression : String) : List String :=
  match Filter.parse expression with
  | .error fault => [s.explain fault]
  | .ok filter =>
    "[解析结果]:" :: filter.toJson.pretty ::
      match s.compiler.compile s.root filter with
      | .error fault => [s.explain fault]
      | .ok compiled =>
        "[字段路径]:" :: compiled.resolved.map showField ++
          ["[生成的 SQL]:", compiled.statement.render]

def showAliases (s : Session) : List String :=
  ("主实体别名: " ++ s.aliases.main.getD "(未设置)") ::
    s.aliases.aliases.toList.map fun (name, path) => "  " ++ name ++ " -> " ++ path

/-- The session after a command, and what is shown. -/
def handle (s : Session) : Command → Session × List String
  | .help => (s, helpLines)
  | .register name path =>
    match s.aliases.register name path with
    | .ok aliases => ({ s with aliases := aliases }, ["✅ " ++ name ++ " -> " ++ path])
    | .error fault => (s, [s.explain fault])
  | .setMain name =>
    match s.aliases.setMain name with
    | .ok aliases => ({ s with aliases := aliases }, ["✅ 主实体别名: " ++ name])
    | .error fault => (s, [s.explain fault])
  | .showAliases => (s, s.showAliases)
  | .clearAliases => ({ s with aliases := .empty }, ["✅ 已清空别名"])
  | .setRoot name =>
    if s.config.entities.contains name then ({ s with root := name }, ["✅ 根实体: " ++ name])
    else (s, [complaint ("未知实体: " ++ name)])
  | .evaluate expression => (s, s.evaluate expression)

/-- The session after a line, and what is shown, or nothing if the line leaves the session. What was
taken back and the blanks at the ends do not count, and nothing is shown for a blank line. -/
def respond (s : Session) (line : String) : Option (Session × List String) :=
  let line := String.ofList (trim (Command.kept line.toList))
  if line.isEmpty then some (s, [])
  else if line = "quit" || line = "exit" then none
  else some (s.handle (.ofLine line))

/-- The session after its lines, and what is shown. It ends with the first line that leaves it, or
else with its lines. -/
def run (s : Session) : List String → Session × List String
  | [] => (s, [])
  | line :: lines =>
    match s.respond line with
    | none => (s, [])
    | some (next, shown) =>
      let (last, later) := next.run lines
      (last, shown ++ later)

/-- The root of a session that is given none: the first entity. -/
def defaultRoot (config : Config) : String := config.entities.keys.head?.getD ""

/-- The session that a configuration file and perhaps a root entity start, and what is shown. -/
def start (path : String) (file : ConfigFile) (root : Option String) : Session × List String :=
  let (config, report) : Config × List String :=
    match Config.load path file with
    | .ok config =>
      (config, [
        "✅ 使用JSON配置文件: " ++ path,
        "✅ 加载了 " ++ String.ofList (Decimal.digitsOf config.entities.size) ++ " 个实体定义"])
    | .error fault => (Config.empty, ["⚠️ " ++ fault.message ++ ", 使用空配置"])
  let root := root.getD (defaultRoot config)
  (⟨config, .empty, root⟩,
    "--- Filter Resolver: 过滤表达式与路径解析 ---" :: report ++
      ["根实体: " ++ root, "输入 help 查看命令"])

end Session

end FilterQuery
