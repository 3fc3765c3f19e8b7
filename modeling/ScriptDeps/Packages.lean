/-!
# Packages of modules

The package that has to be installed for a module mostly has the name of the module. A table lists
those that have another name.
-/

namespace ScriptDeps

/-- Modules whose package has another name, and its name. -/
def renamedPackages : List (String × String) :=
  [("PIL", "Pillow"), ("yaml", "PyYAML"), ("bs4", "beautifulsoup4"),
    ("sklearn", "scikit-learn"), ("skimage", "scikit-image"), ("cv2", "opencv-python"),
    ("serial", "pyserial"), ("usb", "pyusb"), ("Crypto", "pycryptodome"),
    ("OpenGL", "PyOpenGL"), ("setuptools_scm", "setuptools-scm"),
    ("flask_sqlalchemy", "Flask-SQLAlchemy"), ("flask_login", "Flask-Login"),
    ("flask_migrate", "Flask-Migrate"), ("flask_wtf", "Flask-WTF"),
    ("flask_mail", "Flask-Mail"), ("flask_cors", "Flask-Cors"),
    ("flask_jwt_extended", "Flask-JWT-Extended"), ("flask_restful", "Flask-RESTful"),
    ("flask_bcrypt", "Flask-Bcrypt"), ("psycopg2", "psycopg2-binary"), ("pyside2", "PySide2"),
    ("win32com", "pywin32"), ("Xlib", "python-xlib"), ("Levenshtein", "python-Levenshtein"),
    ("dash_bootstrap_components", "dash-bootstrap-components"), ("dash_table", "dash-table"),
    ("pandas_datareader", "pandas-datareader"), ("jupyter_core", "jupyter-core"),
    ("jupyter_client", "jupyter-client"), ("prometheus_client", "prometheus-client"),
    ("sqlalchemy_utils", "SQLAlchemy-Utils"), ("sqlalchemy_mixins", "sqlalchemy-mixins"),
    ("markdown_it", "markdown-it-py"), ("email_validator", "email-validator"),
    ("python_jose", "python-jose"), ("jwt", "PyJWT"),
    ("python_http_client", "python-http-client"), ("dateutil", "python-dateutil"),
    ("dotenv", "python-dotenv"), ("fitz", "PyMuPDF"), ("ConfigParser", "configparser"),
    ("attr", "attrs"), ("google_auth_oauthlib", "google-auth-oauthlib"),
    ("magic", "python-magic"), ("docx", "python-docx"), ("pptx", "python-pptx"),
    ("telegram", "python-telegram-bot"), ("slugify", "python-slugify"),
    ("multipart", "python-multipart")]

/-- The package that provides a module. -/
def packageOf (name : String) : String := (renamedPackages.lookup name).getD name

end ScriptDeps
