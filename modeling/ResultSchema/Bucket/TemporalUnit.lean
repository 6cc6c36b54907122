import ResultSchema.Json.Basic

/-! # Temporal buckets

The units by which a date or time column is grouped.
-/

namespace ResultSchema

/-- A unit of time; `default` leaves the bucket open. -/
inductive TemporalUnit
  | default | millisecond | second | minute | hour | day | week | month | quarter | year
  | minuteOfHour | hourOfDay | dayOfWeek | dayOfMonth | dayOfYear | weekOfYear | monthOfYear
  | quarterOfYear
  deriving DecidableEq, Repr

namespace TemporalUnit

def all : List TemporalUnit :=
  [default, millisecond, second, minute, hour, day, week, month, quarter, year, minuteOfHour,
    hourOfDay, dayOfWeek, dayOfMonth, dayOfYear, weekOfYear, monthOfYear, quarterOfYear]

def name : TemporalUnit → String
  | default => "default"
  | millisecond => "millisecond"
  | second => "second"
  | minute => "minute"
  | hour => "hour"
  | day => "day"
  | week => "week"
  | month => "month"
  | quarter => "quarter"
  | year => "year"
  | minuteOfHour => "minute-of-hour"
  | hourOfDay => "hour-of-day"
  | dayOfWeek => "day-of-week"
  | dayOfMonth => "day-of-month"
  | dayOfYear => "day-of-year"
  | weekOfYear => "week-of-year"
  | monthOfYear => "month-of-year"
  | quarterOfYear => "quarter-of-year"

def displayName : TemporalUnit → String
  | default => "Default"
  | millisecond => "Millisecond"
  | second => "Second"
  | minute => "Minute"
  | hour => "Hour"
  | day => "Day"
  | week => "Week"
  | month => "Month"
  | quarter => "Quarter"
  | year => "Year"
  | minuteOfHour => "Minute of hour"
  | hourOfDay => "Hour of day"
  | dayOfWeek => "Day of week"
  | dayOfMonth => "Day of month"
  | dayOfYear => "Day of year"
  | weekOfYear => "Week of year"
  | monthOfYear => "Month of year"
  | quarterOfYear => "Quarter of year"

def ofName? (text : String) : Option TemporalUnit := all.find? (·.name == text)

theorem ofName?_name (u : TemporalUnit) : ofName? u.name = some u := by
  cases u <;> decide +kernel

def toJson (u : TemporalUnit) : Json := .str u.name

def ofJson? (v : Json) : Option TemporalUnit := v.asString?.bind ofName?

def ofTag? (v : Json) : Option TemporalUnit := v.asTag?.bind ofName?

end TemporalUnit

end ResultSchema
