import FilterQuery.Config.Read

/-!
Configurations loaded from files.
-/
namespace FilterQuery

open Json

/-- What is found at the path of a configuration. -/
inductive ConfigFile where
  | missing
  | unreadable
  | text (content : String)

/-- The file of some bytes, which are a text if they are UTF-8. -/
def ConfigFile.ofBytes (bytes : ByteArray) : ConfigFile :=
  match String.fromUTF8? bytes with
  | some content => .text content
  | none => .unreadable

/-- Why there is no configuration at a path. -/
inductive LoadFault where
  | missing (path : String)
  | unreadable (path : String)
  | badJson (path : String) (failure : Failure)
deriving DecidableEq

/-- Why there is no configuration, in words. -/
def LoadFault.message : LoadFault → String
  | missing path => "配置文件不存在: " ++ path
  | unreadable path => "无法读取配置文件 " ++ path ++ ": "
  | badJson path _ => "无法解析JSON配置文件 " ++ path ++ ": "

/-- The configuration in the file at a path. -/
def Config.load (path : String) : ConfigFile → Except LoadFault Config
  | .missing => .error (.missing path)
  | .unreadable => .error (.unreadable path)
  | .text content =>
    match Config.ofText content with
    | .ok config => .ok config
    | .error failure => .error (.badJson path failure)

end FilterQuery
