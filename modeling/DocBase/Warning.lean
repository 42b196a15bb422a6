import DocBase.Sql.Statement

namespace DocBase

inductive Warning
  | unsupportedOperator (operator : Sql.Operator) (column : String)
  | updateIgnoresCondition (table : String)
  | deleteIgnoresCondition (table : String)
  | tableReplaced (table : String)
deriving DecidableEq

def Warning.message : Warning → String
  | unsupportedOperator operator column =>
    "Operator '" ++ operator.symbol ++ "' on column '" ++ column ++
      "' is not supported, no records match"
  | updateIgnoresCondition table =>
    "UPDATE ignores its WHERE clause and rewrites every record of '" ++ table ++ "'"
  | deleteIgnoresCondition table =>
    "DELETE ignores its WHERE clause and removes every record of '" ++ table ++ "'"
  | tableReplaced table => "Table '" ++ table ++ "' already existed and was replaced"

end DocBase
