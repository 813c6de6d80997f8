/-!
The host's variables. A variable is written as a token that the host replaces by a value whenever it
draws, so the value is that of the window or pane being drawn.
-/

namespace StatusLine

def variableNames : List String := [
  "active_window_index", "alternate_on", "alternate_saved_x", "alternate_saved_y",
  "buffer_created", "buffer_name", "buffer_sample", "buffer_size", "client_activity",
  "client_cell_height", "client_cell_width", "client_control_mode", "client_created",
  "client_discarded", "client_flags", "client_height", "client_key_table", "client_last_session",
  "client_name", "client_pid", "client_prefix", "client_readonly", "client_session",
  "client_termfeatures", "client_termname", "client_termtype", "client_tty", "client_uid",
  "client_user", "client_utf8", "client_width", "client_written", "command",
  "command_list_alias", "command_list_name", "command_list_usage", "config_files",
  "copy_cursor_line", "copy_cursor_word", "copy_cursor_x", "copy_cursor_y", "current_file",
  "cursor_character", "cursor_flag", "cursor_x", "cursor_y", "history_bytes", "history_limit",
  "history_size", "hook", "hook_client", "hook_pane", "hook_session", "hook_session_name",
  "hook_window", "hook_window_name", "host", "host_short", "insert_flag", "keypad_cursor_flag",
  "keypad_flag", "last_window_index", "line", "mouse_all_flag", "mouse_any_flag",
  "mouse_button_flag", "mouse_hyperlink", "mouse_line", "mouse_sgr_flag", "mouse_standard_flag",
  "mouse_utf8_flag", "mouse_word", "mouse_x", "mouse_y", "next_session_id", "origin_flag",
  "pane_active", "pane_at_bottom", "pane_at_left", "pane_at_right", "pane_at_top", "pane_bg",
  "pane_bottom", "pane_current_command", "pane_current_path", "pane_dead", "pane_dead_signal",
  "pane_dead_status", "pane_dead_time", "pane_fg", "pane_format", "pane_height", "pane_id",
  "pane_in_mode", "pane_index", "pane_input_off", "pane_last", "pane_left", "pane_marked",
  "pane_marked_set", "pane_mode", "pane_path", "pane_pid", "pane_pipe", "pane_right",
  "pane_search_string", "pane_start_command", "pane_start_path", "pane_synchronized",
  "pane_tabs", "pane_title", "pane_top", "pane_tty", "pane_width", "pid", "rectangle_toggle",
  "scroll_position", "scroll_region_lower", "scroll_region_upper", "search_match",
  "search_present", "selection_active", "selection_end_x", "selection_end_y",
  "selection_present", "selection_start_x", "selection_start_y", "session_activity",
  "session_alerts", "session_attached", "session_attached_list", "session_created",
  "session_format", "session_group", "session_group_attached", "session_group_attached_list",
  "session_group_list", "session_group_many_attached", "session_group_size", "session_grouped",
  "session_id", "session_last_attached", "session_many_attached", "session_marked",
  "session_name", "session_path", "session_stack", "session_windows", "socket_path",
  "start_time", "uid", "user", "version", "window_active", "window_active_clients",
  "window_active_clients_list", "window_active_sessions", "window_active_sessions_list",
  "window_activity", "window_activity_flag", "window_bell_flag", "window_bigger",
  "window_cell_height", "window_cell_width", "window_end_flag", "window_flags", "window_format",
  "window_height", "window_id", "window_index", "window_last_flag", "window_layout",
  "window_linked", "window_linked_sessions", "window_linked_sessions_list", "window_marked_flag",
  "window_name", "window_offset_x", "window_offset_y", "window_panes", "window_raw_flags",
  "window_silence_flag", "window_stack_index", "window_start_flag", "window_visible_layout",
  "window_width", "window_zoomed_flag", "wrap_flag"]

def isNameByte (b : UInt8) : Bool := (97 ≤ b && b ≤ 122) || (48 ≤ b && b ≤ 57) || b == 95

-- Computing the characters of every name takes long, computing the bytes does not.
theorem all_isNameByte :
    ∀ name ∈ variableNames, name.toByteArray.data.toList.all isNameByte = true := by
  decide +kernel

theorem not_mem_of_bytes {c : Char} {byte : UInt8} {s : String}
    (hc : String.utf8EncodeChar c = [byte]) (h : byte ∉ s.toByteArray.data.toList) :
    c ∉ s.toList := by
  have hbytes : s.toByteArray.data.toList = s.toList.flatMap String.utf8EncodeChar := by
    rw [← String.utf8Encode_toList]
    simp [List.utf8Encode]
  intro hmem
  rw [hbytes] at h
  exact h (List.mem_flatMap.mpr ⟨c, hmem, by simp [hc]⟩)

structure Variable where
  name : String
  known : variableNames.contains name = true
deriving DecidableEq

namespace Variable

def ofName? (name : String) : Option Variable :=
  if h : variableNames.contains name = true then some ⟨name, h⟩ else none

def all : List Variable := variableNames.filterMap ofName?

def token (v : Variable) : String := "#\x7b" ++ v.name ++ "\x7d"

theorem ofName?_name (v : Variable) : ofName? v.name = some v := by
  simp only [ofName?, v.known, dif_pos]

theorem not_mem_name {c : Char} {byte : UInt8} (hc : String.utf8EncodeChar c = [byte])
    (h : isNameByte byte = false) (v : Variable) : c ∉ v.name.toList := by
  refine not_mem_of_bytes hc fun hbyte => ?_
  have hname := all_isNameByte v.name (List.contains_iff_mem.mp v.known)
  rw [List.all_eq_true.mp hname byte hbyte] at h
  cases h

def windowIndex : Variable := ⟨"window_index", by decide⟩

def windowFlags : Variable := ⟨"window_flags", by decide⟩

def windowName : Variable := ⟨"window_name", by decide⟩

def sessionName : Variable := ⟨"session_name", by decide⟩

def paneCurrentPath : Variable := ⟨"pane_current_path", by decide⟩

end Variable

end StatusLine
