import LedgerRules.Ident
/-!
# Settings of a run

How many transactions a full scan reads at a time, and whether transfers are linked at all. The
size of a page always lies between one and the largest that is allowed, whatever the settings and
the request say.
-/

namespace LedgerRules

/-- The settings of a run. -/
structure Settings where
  /-- The size of a page if the request names none. -/
  defaultPageSize : UInt64
  /-- The largest page that a request can have. -/
  maxPageSize : UInt64
  /-- Whether staged transfers are written. -/
  linkTransfers : Bool
deriving DecidableEq

namespace Settings

/-- The largest page that settings can allow. -/
def pageLimit : UInt64 := 1000

/-- The settings where nothing else is set. -/
def standard : Settings := ⟨100, pageLimit, true⟩

instance : Inhabited Settings := ⟨standard⟩

/-- The largest page under these settings. -/
def largestPage (s : Settings) : UInt64 := max 1 (min s.maxPageSize pageLimit)

/-- The size of the pages of a scan. -/
def pageSize (s : Settings) : Option Int64 → UInt64
  | none => max 1 (min s.defaultPageSize s.largestPage)
  | some requested => if requested < 1 then 1 else min requested.toUInt64 s.largestPage

end Settings

end LedgerRules
