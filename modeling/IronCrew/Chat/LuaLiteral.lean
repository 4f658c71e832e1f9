import Mathlib.Data.String.Basic
import IronCrew.Lib.LuaStrings

/-!
# Lua literals of the chat command

The text of the snippet that opens a conversation has the names it was given as string literals.
-/

namespace IronCrew

/-- `str::replace` for one character. -/
def replaceChar (c : Char) (by' : List Char) (text : List Char) : List Char :=
  text.flatMap fun d => if d = c then by' else [d]

/-- `__chat_lua_literal`. The search for a level ends at 32. -/
def chatLuaLiteral (s : String) : String :=
  match (List.range 33).find? fun level => ¬ LuaStrings.closer level <:+: s.toList with
  | some level =>
    let eq := List.replicate level '='
    String.ofList ('[' :: eq ++ '[' :: s.toList ++ LuaStrings.closer level)
  | none =>
    let escaped := replaceChar '"' ['\\', '"'] (replaceChar '\\' ['\\', '\\'] s.toList)
    String.ofList ('"' :: escaped ++ ['"'])

end IronCrew
