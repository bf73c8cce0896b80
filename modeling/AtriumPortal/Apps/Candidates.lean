import AtriumPortal.Apps.Scan
/-!
# The order of the candidates

`apps_for_content_type` names ids in the order of its sources, drops the removed ones and
looks the rest up. What is left out of its list stands behind a full screen.
-/

namespace AtriumPortal.Apps.AppDirs

/-! ## The ids the sources name -/

/-- The candidates before the cap. -/
def candidates (dirs : AppDirs) (contentType : String) : List AppInfo :=
  (((dirs.ordered contentType).filter (· ∉ dirs.removed contentType)).filterMap (byId dirs.loadAll)).filter
    fun app => !app.noDisplay && app.exec ≠ ""

end AtriumPortal.Apps.AppDirs
