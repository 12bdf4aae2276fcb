/-!
# Client events

What an ads client tells its observers: changes of locale and preferences, of tabs and of what the
user and the browser do.
-/

namespace AdLedger

/-- Something that happened in the client. -/
inductive Event where
  | localeDidChange (locale : String)
  /-- The preference at a path has another value. -/
  | prefDidChange (path : String)
  | didUpdateResourceComponent (id : String)
  | tabTextContentDidChange
  | tabHtmlContentDidChange
  | tabDidStartPlayingMedia
  | tabDidStopPlayingMedia
  | tabDidChange
  | didCloseTab
  | userDidBecomeIdle
  | userDidBecomeActive
  | browserDidEnterForeground
  | browserDidEnterBackground
  | browserDidBecomeActive
  | browserDidResignActive
  deriving DecidableEq

def Event.name : Event → String
  | localeDidChange _ => "locale_did_change"
  | prefDidChange _ => "pref_did_change"
  | didUpdateResourceComponent _ => "did_update_resource_component"
  | tabTextContentDidChange => "tab_text_content_did_change"
  | tabHtmlContentDidChange => "tab_html_content_did_change"
  | tabDidStartPlayingMedia => "tab_did_start_playing_media"
  | tabDidStopPlayingMedia => "tab_did_stop_playing_media"
  | tabDidChange => "tab_did_change"
  | didCloseTab => "did_close_tab"
  | userDidBecomeIdle => "user_did_become_idle"
  | userDidBecomeActive => "user_did_become_active"
  | browserDidEnterForeground => "browser_did_enter_foreground"
  | browserDidEnterBackground => "browser_did_enter_background"
  | browserDidBecomeActive => "browser_did_become_active"
  | browserDidResignActive => "browser_did_resign_active"

end AdLedger
