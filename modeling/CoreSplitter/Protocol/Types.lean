import CoreSplitter.Lib.Bytes

/-! The codes of commands and responses, as they are displayed (`protocol/types.rs`). -/

namespace CoreSplitter
open Bytes

/-- The commands that `CommandCode::from_byte` knows. -/
def commandNames : List (UInt8 × String) :=
  [(0x01, "CMD_APPSTART"), (0x02, "CMD_SEND_MSG"), (0x03, "CMD_SEND_CHAN_MSG"), (0x04, "CMD_GET_CONTACTS"),
      (0x05, "CMD_GET_TIME"), (0x06, "CMD_SET_TIME"), (0x07, "CMD_SEND_ADVERT"), (0x08, "CMD_SET_NAME"),
      (0x09, "CMD_UPDATE_CONTACT"), (0x0A, "CMD_GET_MSG"), (0x0B, "CMD_SET_RADIO"), (0x0C, "CMD_SET_TX_POWER"),
      (0x0D, "CMD_RESET_PATH"), (0x0E, "CMD_SET_COORDS"), (0x0F, "CMD_REMOVE_CONTACT"), (0x10, "CMD_SHARE_CONTACT"),
      (0x11, "CMD_EXPORT_CONTACT"), (0x12, "CMD_IMPORT_CONTACT"), (0x13, "CMD_REBOOT"), (0x14, "CMD_GET_BATTERY"),
      (0x15, "CMD_SET_TUNING"), (0x16, "CMD_DEVICE_QUERY"), (0x17, "CMD_EXPORT_PRIVATE_KEY"),
      (0x18, "CMD_IMPORT_PRIVATE_KEY"), (0x19, "CMD_SEND_RAW_DATA"), (0x1A, "CMD_SEND_LOGIN"),
      (0x1B, "CMD_SEND_STATUS_REQ"), (0x1C, "CMD_HAS_CONNECTION"), (0x1D, "CMD_SEND_LOGOUT"),
      (0x1E, "CMD_GET_CONTACT_BY_KEY"), (0x1F, "CMD_GET_CHANNEL"), (0x20, "CMD_SET_CHANNEL"),
      (0x21, "CMD_SIGN_START"), (0x22, "CMD_SIGN_DATA"), (0x23, "CMD_SIGN_FINISH"), (0x24, "CMD_SEND_TRACE"),
      (0x25, "CMD_SET_DEVICE_PIN"), (0x26, "CMD_SET_OTHER_PARAMS"), (0x27, "CMD_GET_TELEMETRY"),
      (0x28, "CMD_GET_CUSTOM_VARS"), (0x29, "CMD_SET_CUSTOM_VAR"), (0x2A, "CMD_GET_ADVERT_PATH"),
      (0x2B, "CMD_GET_TUNING_PARAMS"), (0x32, "CMD_BINARY_REQ"), (0x33, "CMD_FACTORY_RESET"),
      (0x34, "CMD_PATH_DISCOVERY"), (0x36, "CMD_SET_FLOOD_SCOPE"), (0x37, "CMD_SEND_CONTROL_DATA"),
      (0x38, "CMD_GET_STATS"), (0x39, "CMD_SEND_ANON_REQ"), (0x3A, "CMD_SET_AUTOADD_CONFIG"),
      (0x3B, "CMD_GET_AUTOADD_CONFIG"), (0x3C, "CMD_GET_ALLOWED_REPEAT_FREQ"), (0x3D, "CMD_SET_PATH_HASH_MODE"),
      (0x3E, "CMD_SEND_CHANNEL_DATA"), (0x3F, "CMD_SET_DEFAULT_FLOOD_SCOPE"), (0x40, "CMD_GET_DEFAULT_FLOOD_SCOPE"),
      (0x41, "CMD_SEND_RAW_PACKET"), (0x42, "CMD_RUN_CLI_COMMAND")]

/-- The responses that `ResponseCode::from_byte` knows. -/
def responseNames : List (UInt8 × String) :=
  [(0x00, "OK"), (0x01, "ERROR"), (0x02, "CONTACT_START"), (0x03, "CONTACT"), (0x04, "CONTACT_END"),
      (0x05, "SELF_INFO"), (0x06, "MSG_SENT"), (0x07, "CONTACT_MSG_RECV"), (0x08, "CHANNEL_MSG_RECV"),
      (0x09, "CURRENT_TIME"), (0x0A, "NO_MORE_MSGS"), (0x0B, "CONTACT_URI"), (0x0C, "BATTERY"), (0x0D, "DEVICE_INFO"),
      (0x0E, "PRIVATE_KEY"), (0x0F, "DISABLED"), (0x10, "CONTACT_MSG_RECV_V3"), (0x11, "CHANNEL_MSG_RECV_V3"),
      (0x12, "CHANNEL_INFO"), (0x13, "SIGN_START"), (0x14, "SIGNATURE"), (0x15, "CUSTOM_VARS"), (0x16, "ADVERT_PATH"),
      (0x17, "TUNING_PARAMS"), (0x18, "STATS"), (0x19, "AUTOADD_CONFIG"), (0x1A, "ALLOWED_REPEAT_FREQ"),
      (0x1B, "CHANNEL_DATA_RECV"), (0x1C, "DEFAULT_FLOOD_SCOPE"), (0x1D, "CLI_REPLY"), (0x80, "ADVERTISEMENT"),
      (0x81, "PATH_UPDATE"), (0x82, "ACK"), (0x83, "MESSAGES_WAITING"), (0x84, "RAW_DATA"), (0x85, "LOGIN_SUCCESS"),
      (0x86, "LOGIN_FAILED"), (0x87, "STATUS_RESPONSE"), (0x88, "LOG_DATA"), (0x89, "TRACE_DATA"),
      (0x8A, "NEW_ADVERT"), (0x8B, "TELEMETRY_RESPONSE"), (0x8C, "BINARY_RESPONSE"),
      (0x8D, "PATH_DISCOVERY_RESPONSE"), (0x8E, "CONTROL_DATA"), (0x8F, "CONTACT_DELETED"), (0x90, "CONTACTS_FULL")]

/-- A code that is not known is displayed by its digits. -/
def displayed (names : List (UInt8 × String)) (unknown : String) (code : UInt8) : Bytes :=
  match names.lookup code with
  | some name => text name
  | none => text unknown ++ text "(0x" ++ hexEncode [code] ++ text ")"

end CoreSplitter
