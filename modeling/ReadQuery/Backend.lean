/-!
# Backends

The stores that a read is compiled for, with the names they go by in messages.
-/

namespace ReadQuery

/-- A store, or rather the language its queries are written in. -/
inductive Backend where
  | postgres
  | mysql
  | sqlite
  | clickHouse
  | mongo
  | influx
  deriving DecidableEq, Repr

def Backend.name : Backend → String
  | postgres => "PostgreSQL"
  | mysql => "MySQL"
  | sqlite => "SQLite"
  | clickHouse => "ClickHouse"
  | mongo => "MongoDB"
  | influx => "InfluxQL"

end ReadQuery
